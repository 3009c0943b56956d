import Converse.Reply.Event

/-
  One frame of the reply stream and the event it carries.
  The kind of the event travels in the data; where the data has no tag, the name of the frame is the tag,
  unless it is the name that frames have by default.
-/

namespace Converse.Reply

structure Frame where
  name : String
  data : String
deriving DecidableEq, Repr

namespace Frame

/-- The name of a frame that was given none. -/
def defaultName : String := "message"

/-- The data with the name of the frame as its tag, where it has no tag. -/
def withTag (name : String) : Json → Json
  | .object members =>
    if (members.lookup Json.tagName).isNone && name != "" && name != defaultName then
      .object (Json.Members.put Json.tagName (.string name) members)
    else .object members
  | v => v

/-- The event of the frame, or why it has none. -/
def event (f : Frame) : Except Json.Fault Event :=
  match Json.read? f.data with
  | some v => Event.decode.ofValue (withTag f.name v)
  | none => .error .malformed

end Frame

end Converse.Reply
