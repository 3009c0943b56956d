import Converse.Http.Wire
import Converse.Terminal.Console
import Converse.Link.Service

/-
  A console whose links are fed from outside while a turn is under way.
  A link opens empty and waits; what comes over the connection is added to it as it comes.
-/

namespace Converse.Live

/-- The links of a service: each opens empty and waits, unless no request can be made. -/
def transport (s : Service) : Transport :=
  match s.request ⟨"", none⟩ with
  | .error e => ⟨[], .refused e.message⟩
  | .ok _ => ⟨[], .accepted ⟨[], true⟩⟩

/-- The request of the turn under way. -/
def request? (s : Service) (c : Console) : Option Http.Request :=
  match c.session.journal.questions.getLast? with
  | none => none
  | some q => (s.request q).toOption

/-- Adds to what the link of the turn under way has. -/
def offer (c : Console) (items : List Feed.Item) : Console :=
  match c.session.phase.link? with
  | none => c
  | some link =>
    let feed := { link.feed with items := link.feed.items ++ items }
    { c with session :=
        { c.session with phase := c.session.phase.withLink { link with feed := feed } } }

/-- Adds to the link and takes in what can be taken in. -/
def feed (c : Console) (items : List Feed.Item) : Console := (offer c items).follow

/-- The interrupt key while a turn is under way. -/
def interrupt (c : Console) : Console := { c with session := c.session.signalStop }.follow

/-- The deliveries in the bytes that have come so far. -/
def deliveries (url : Url) (closed : Bool) (bytes : List UInt8) : List Feed.Item :=
  match Http.Response.ofWire closed (bytes.length + 1) bytes with
  | some r => (Reception.ofResponse r.arrived).feed.items
  | none => if closed then (Network.reception url none).feed.items else []

/-- Sets the clock of the session. -/
def setClock (now : Int) (c : Console) : Console :=
  { c with session := c.session.setClock now }

/-- The console after what it shows was written out. -/
def drained (c : Console) : Console := { c with shown := .empty }

/-! ## Identities -/

def hexText (width n : Nat) : String :=
  String.ofList (List.replicate (width - (Nat.toDigits 16 n).length) '0' ++ Nat.toDigits 16 n)

/-- The identity with a number, written in five groups; the marks of its kind stand in the third and the
  fourth. -/
def identity (n : Nat) : String :=
  String.intercalate "-" [
    hexText 8 (n / Nat.pow 2 90 % Nat.pow 2 32),
    hexText 4 (n / Nat.pow 2 74 % Nat.pow 2 16),
    hexText 4 (0x4000 + n / Nat.pow 2 62 % Nat.pow 2 12),
    hexText 4 (0x8000 + n / Nat.pow 2 48 % Nat.pow 2 14),
    hexText 12 (n % Nat.pow 2 48)]

end Converse.Live
