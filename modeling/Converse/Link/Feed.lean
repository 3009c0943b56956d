import Converse.Link.Delivery

/-
  What a link will deliver.
  A feed lists the deliveries to come; between two of them the stop signal of the turn may fire by itself.
  After the last one the link ends, or nothing more ever comes.
-/

namespace Converse

namespace Feed

inductive Item
  | deliver (d : Delivery)
  /-- The stop signal fires while the next delivery is being fetched. -/
  | fire
deriving DecidableEq, Repr

end Feed

structure Feed where
  items : List Feed.Item
  /-- Whether nothing more ever comes after the items, not even an end. -/
  hangs : Bool
deriving DecidableEq, Repr

namespace Feed

/-- What fetching gives: a delivery, the end, or nothing yet. -/
inductive Fetched
  | delivery (d : Delivery)
  | ended
  | nothing
deriving DecidableEq, Repr

def Fetched.delivery? : Fetched → Option Delivery
  | .delivery d => some d
  | _ => none

/-- The next thing in a list of items, what is left, and whether the stop signal fired meanwhile. -/
def fetchItems (hangs : Bool) : List Item → Fetched × List Item × Bool
  | [] => (if hangs then .nothing else .ended, [], false)
  | .deliver d :: rest => (.delivery d, rest, false)
  | .fire :: rest =>
    let r := fetchItems hangs rest
    (r.1, r.2.1, true)

/-- One fetch: what comes, the feed after it, and whether the stop signal fired meanwhile. -/
def fetch (f : Feed) : Fetched × Feed × Bool :=
  let r := fetchItems f.hangs f.items
  (r.1, { f with items := r.2.1 }, r.2.2)

/-- A link that closes at once. -/
def closed : Feed := ⟨[.deliver (.closed .normal)], false⟩

def ofDeliveries (ds : List Delivery) (hangs : Bool) : Feed := ⟨ds.map .deliver, hangs⟩

end Feed

/-- What comes of opening a link: a feed, or a refusal with its reason. -/
inductive Opening
  | refused (reason : String)
  | accepted (feed : Feed)
deriving DecidableEq, Repr

/-- The links that can be opened, in order, and what comes after the last of them. -/
structure Transport where
  openings : List Opening
  afterwards : Opening
deriving DecidableEq, Repr

namespace Transport

def next (t : Transport) : Opening × Transport :=
  match t.openings with
  | [] => (t.afterwards, t)
  | o :: rest => (o, { t with openings := rest })

end Transport

end Converse
