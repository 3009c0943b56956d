import Converse.Link.Delivery
import Converse.Link.Refusal
import Converse.Http.MediaType
import Converse.Reply.Lines
import Converse.Link.Feed

/-
  From a response to deliveries.
  A response gives a list of arrivals: that it was accepted, the frames of its body, and how it ended. The
  relay takes the arrivals one by one and delivers them up to the first end. Trouble is looked into before it
  is reported, for which the rest of a response may have to be read. Before each thing that it waits for the
  relay looks whether it is stopped; a relay that is stopped closes with nothing after it.
-/

namespace Converse

/-- What is wrong with a response or with the connection, not yet looked into. -/
inductive Trouble
  | refused (r : Http.Response)
  | contentType (value : List UInt8)
  | connection (reason : String)
deriving DecidableEq, Repr

namespace Trouble

/-- A content type as an error shows it. -/
def contentTypeText (value : List UInt8) : String :=
  match Http.Header.textOf value with
  | some cs => String.ofList cs
  | none => "<non-ascii>"

/-- What is found when it is looked into. -/
def failure : Trouble → Failure
  | .refused r => Refusal.failure r
  | .contentType value => .contentType (contentTypeText value)
  | .connection reason => .connection reason

/-- Whether looking into it takes for ever. -/
def isEndless : Trouble → Bool
  | .refused r => Refusal.waits r
  | _ => false

end Trouble

/-- One thing that comes from the connection. -/
inductive Arrival
  | accepted
  | frame (f : Reply.Frame)
  | ended
  | failed (t : Trouble)
deriving DecidableEq, Repr

namespace Arrival

def delivery : Arrival → Delivery
  | .accepted => .opened
  | .frame f => .ofFrame f
  | .ended => .closed .normal
  | .failed t => .closed (.failed t.failure)

end Arrival

namespace Relay

/-- What the relay waits for: an arrival, what is found about a trouble, or nothing any more. -/
inductive Stage
  | awaiting
  | examining (t : Trouble)
  | closed
deriving DecidableEq, Repr

/-- What the relay finds when it looks: the stop signal, what it waits for, or neither yet. -/
inductive Look
  | stop
  | ready
  | nothing
deriving DecidableEq, Repr

end Relay

/-- A relay and the arrivals it has not taken. -/
structure Relay where
  arrivals : List Arrival
  stage : Relay.Stage
deriving DecidableEq, Repr

namespace Relay

def ofArrivals (arrivals : List Arrival) : Relay := ⟨arrivals, .awaiting⟩

def isClosed (r : Relay) : Bool := r.stage == .closed

def close (r : Relay) (ending : Ending) : Feed.Fetched × Relay :=
  (.delivery (.closed ending), { r with stage := .closed })

/-- Takes the next arrival. Arrivals that run out end the link as well. -/
def take (r : Relay) : Feed.Fetched × Relay :=
  match r.arrivals with
  | [] => r.close .normal
  | .accepted :: rest => (.delivery .opened, ⟨rest, .awaiting⟩)
  | .frame f :: rest => (.delivery (.ofFrame f), ⟨rest, .awaiting⟩)
  | .ended :: rest => close ⟨rest, .awaiting⟩ .normal
  | .failed t :: rest => (.nothing, ⟨rest, .examining t⟩)

/-- One look. The stop signal comes before all else, and after the end there is nothing but the end. -/
def step (r : Relay) (look : Look) : Feed.Fetched × Relay :=
  match r.stage, look with
  | .closed, _ => (.ended, r)
  | _, .stop => r.close .aborted
  | _, .nothing => (.nothing, r)
  | .awaiting, .ready => r.take
  | .examining t, .ready => r.close (.failed t.failure)

/-- What is delivered in the course of many looks, and the relay after them. -/
def run (r : Relay) : List Look → List Delivery × Relay
  | [] => ([], r)
  | look :: looks =>
    let s := r.step look
    let rest := s.2.run looks
    (s.1.delivery?.toList ++ rest.1, rest.2)

end Relay

/-- What comes from a connection: arrivals, and whether it falls silent after them. -/
structure Reception where
  arrivals : List Arrival
  silent : Bool
deriving DecidableEq, Repr

namespace Reception

def failing (t : Trouble) : Reception := ⟨[.failed t], false⟩

/-- Whether the content type of the response is an event stream. -/
def isEventStream (value : List UInt8) : Bool :=
  match Http.Header.textOf value with
  | some cs => Http.MediaType.isEventStream cs
  | none => false

/-- The fault of bytes that are left over, counted from the first of them. -/
def leftOver : Text.Utf8.Fault → Text.Utf8.Fault
  | .stray _ length => .stray 0 length
  | .cut _ => .cut 0

/-- The arrivals of an accepted response. -/
def ofBody (r : Http.Response) : Reception :=
  let (text, fault) := Text.Utf8.readFront r.body
  let front := .accepted :: (Reply.Lines.frames text).map .frame
  match r.ending, fault with
  | .never, _ => ⟨front, true⟩
  | .broken, _ => ⟨front ++ [.failed (.connection "error decoding response body")], false⟩
  | .complete, none => ⟨front ++ [.ended], false⟩
  | .complete, some fault => ⟨front ++ [.failed (.connection (leftOver fault).message)], false⟩

/-- The arrivals of a response. Only status 200 with an event stream is accepted. -/
def ofResponse (r : Http.Response) : Reception :=
  if r.status != 200 then failing (.refused r)
  else
    let value := (Http.Header.first? r.headers "content-type").getD []
    if isEventStream value then ofBody r else failing (.contentType value)

/-! ## The relay at work -/

/-- What the relay finds when it looks and nobody stops it. -/
def look (n : Reception) (r : Relay) : Relay.Look :=
  match r.stage with
  | .awaiting => if n.silent && r.arrivals.isEmpty then .nothing else .ready
  | .examining t => if t.isEndless then .nothing else .ready
  | .closed => .ready

/-- The relay that nobody stops: what it delivers in so many looks, as long as more is wanted. -/
def attend (n : Reception) : (looks wanted : Nat) → Relay → List Delivery × Relay
  | 0, _, r => ([], r)
  | _ + 1, 0, r => ([], r)
  | looks + 1, wanted + 1, r =>
    match r.step (n.look r) with
    | (.delivery d, r) =>
      let rest := n.attend looks wanted r
      (d :: rest.1, rest.2)
    | (.nothing, r) => n.attend looks (wanted + 1) r
    | (.ended, r) => ([], r)

/-- As many looks as it takes: one for each arrival, one for what is found about a trouble, one for the
  end. -/
def patience (n : Reception) : Nat := n.arrivals.length + 2

/-- The deliveries of a link that is stopped after `count` of them, or when it falls silent. -/
def stopped (n : Reception) (count : Option Nat) : List Delivery :=
  let (ds, r) := n.attend n.patience (count.getD n.patience) (.ofArrivals n.arrivals)
  ds ++ (r.run [.stop]).1

/-- What a turn finds: deliveries, then silence or an end. -/
def feed (n : Reception) : Feed :=
  let (ds, r) := n.attend n.patience n.patience (.ofArrivals n.arrivals)
  .ofDeliveries ds (!r.isClosed)

end Reception

end Converse
