import Converse.Reply.ErrorKind
import Converse.Json.Writer

/-
  The events of a reply, as the server sends them: the start, pieces of text, tools that begin and end, and
  the end or an error.
-/

namespace Converse.Reply

inductive Event
  | start (conversation : String)
  | delta (content : String)
  | toolStart (tool : String) (arguments : Json.Members)
  | toolEnd (tool : String) (success : Bool) (summary : Option String)
  | stop
  | error (message : String) (kind : ErrorKind)
deriving DecidableEq, Repr

namespace Event

/-- The name of the event's kind, which is also its tag. -/
def name : Event → String
  | .start _ => "start"
  | .delta _ => "delta"
  | .toolStart _ _ => "tool_start"
  | .toolEnd _ _ _ => "tool_end"
  | .stop => "end"
  | .error _ _ => "error"

/-- Whether the event ends the reply. -/
def isLast : Event → Bool
  | .stop | .error _ _ => true
  | _ => false

def fields : Event → Json.Members
  | .start c => [("conversation_id", .string c)]
  | .delta s => [("content", .string s)]
  | .toolStart t args => [("tool_name", .string t), ("arguments", .object args)]
  | .toolEnd t ok summary =>
    [("tool_name", .string t), ("success", .bool ok)]
      ++ (match summary with
        | some s => [("result_summary", .string s)]
        | none => [])
  | .stop => []
  | .error m k => [("error", .string m), ("code", k.toJson)]

def toJson (e : Event) : Json := .object ((Json.tagName, .string e.name) :: e.fields)

/-! ## Reading -/

def startShape : Json.Shape Event :=
  { title := "struct variant StreamEvent::Start"
    blank := .start ""
    fields := [.of "conversation_id" .always Json.text fun v _ => .start v] }

def deltaShape : Json.Shape Event :=
  { title := "struct variant StreamEvent::Delta"
    blank := .delta ""
    fields := [.of "content" .always Json.text fun v _ => .delta v] }

def toolStartShape : Json.Shape (String × Json.Members) :=
  { title := "struct variant StreamEvent::ToolStart"
    blank := ("", [])
    fields := [
      .of "tool_name" .always Json.text fun v r => (v, r.2),
      .of "arguments" .never (Json.orDefault Json.freeMap []) fun v r => (r.1, v)] }

def toolEndShape : Json.Shape (String × Bool × Option String) :=
  { title := "struct variant StreamEvent::ToolEnd"
    blank := ("", false, none)
    fields := [
      .of "tool_name" .always Json.text fun v r => (v, r.2),
      .of "success" .always Json.flag fun v r => (r.1, v, r.2.2),
      .of "result_summary" .never (Json.optional Json.text) fun v r => (r.1, r.2.1, v)] }

def errorShape : Json.Shape (String × ErrorKind) :=
  { title := "struct variant StreamEvent::Error"
    blank := ("", .unstated)
    fields := [
      .of "error" .always Json.text fun v r => (v, r.2),
      .of "code" .never (Json.orDefault ErrorKind.decode .unstated) fun v r => (r.1, v)] }

def variants : List (String × Json.Decoder Event) :=
  [("start", startShape.decode),
    ("delta", deltaShape.decode),
    ("tool_start", fun mode d => (toolStartShape.decode mode d).map fun r => .toolStart r.1 r.2),
    ("tool_end", fun mode d => (toolEndShape.decode mode d).map fun r => .toolEnd r.1 r.2.1 r.2.2),
    ("end", Json.bare .stop),
    ("error", fun mode d => (errorShape.decode mode d).map fun r => .error r.1 r.2)]

def decode : Json.Decoder Event := Json.tagged "internally tagged enum StreamEvent" variants

end Event

end Converse.Reply
