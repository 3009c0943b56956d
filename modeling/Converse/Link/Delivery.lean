import Converse.Link.Failure
import Converse.Reply.Frame

/-
  What a link delivers, in order of arrival: that it was opened, events of the reply, frames that
  were dropped, and last how it was closed.
-/

namespace Converse

/-- How a link was closed: by the server, by a failure, or from this side. -/
inductive Ending
  | normal
  | failed (failure : Failure)
  | aborted
deriving DecidableEq, Repr

inductive Delivery
  | opened
  | event (e : Reply.Event)
  /-- A frame without an event; the reason is not there if its data was no JSON. -/
  | dropped (reason : Option String)
  | closed (ending : Ending)
deriving DecidableEq, Repr

namespace Delivery

def isLast : Delivery → Bool
  | .closed _ => true
  | _ => false

/-- The reason why a frame is dropped. -/
def reasonOf : Json.Fault → Option String
  | .malformed => none
  | .misfit m => some m.message

/-- What becomes of a frame. -/
def ofFrame (f : Reply.Frame) : Delivery :=
  match f.event with
  | .ok e => .event e
  | .error fault => .dropped (reasonOf fault)

end Delivery

end Converse
