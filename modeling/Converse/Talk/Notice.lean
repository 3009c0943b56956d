import Converse.Talk.Message
import Converse.Talk.Mishap

/-
  What a session tells its observers while it goes through its turns.
-/

namespace Converse

inductive Notice
  /-- A message was sent and a link is being opened for it. -/
  | turnRequested (message : Message)
  | turnStarted (conversation : String)
  | delta (content : String)
  | toolStarted (tool : ToolRun)
  | toolFinished (tool : ToolRun)
  /-- The reply was finished and joined the history. -/
  | turnFinalized (message : Message)
  | turnFailed (mishap : Mishap)
  /-- The turn was stopped; the message is there if a part of the reply was kept. -/
  | turnCancelled (message : Option Message)
  | cleared
deriving DecidableEq, Repr

namespace Notice

def name : Notice → String
  | .turnRequested _ => "turn_requested"
  | .turnStarted _ => "turn_started"
  | .delta _ => "delta"
  | .toolStarted _ => "tool_started"
  | .toolFinished _ => "tool_finished"
  | .turnFinalized _ => "turn_finalized"
  | .turnFailed _ => "turn_failed"
  | .turnCancelled _ => "turn_cancelled"
  | .cleared => "cleared"

def fields : Notice → Json.Members
  | .turnRequested m => [("message", m.toJson)]
  | .turnStarted c => [("conversation_id", .string c)]
  | .delta s => [("content", .string s)]
  | .toolStarted t => [("tool", t.toJson)]
  | .toolFinished t => [("tool", t.toJson)]
  | .turnFinalized m => [("message", m.toJson)]
  | .turnFailed e => [("error", e.toJson)]
  | .turnCancelled m => [("message", Json.ofOption Message.toJson m)]
  | .cleared => []

def toJson (n : Notice) : Json := .object ((Json.tagName, .string n.name) :: n.fields)

/-- The decoder of a notice with one field. -/
def single {α : Type} (variant field : String) (need : Json.Need) (decode : Json.Decoder α) (blank : α)
    (build : α → Notice) : Json.Decoder Notice := fun mode d =>
  let shape : Json.Shape α :=
    { title := "struct variant SessionEvent::" ++ variant
      blank := blank
      fields := [.of field need decode fun v _ => v] }
  (shape.decode mode d).map build

def decode : Json.Decoder Notice :=
  let message := Message.user "" 0 ""
  let tool := ToolRun.start "" "" []
  Json.tagged "internally tagged enum SessionEvent"
    [("turn_requested", single "TurnRequested" "message" .always Message.decode message .turnRequested),
      ("turn_started", single "TurnStarted" "conversation_id" .always Json.text "" .turnStarted),
      ("delta", single "Delta" "content" .always Json.text "" .delta),
      ("tool_started", single "ToolStarted" "tool" .always ToolRun.decode tool .toolStarted),
      ("tool_finished", single "ToolFinished" "tool" .always ToolRun.decode tool .toolFinished),
      ("turn_finalized", single "TurnFinalized" "message" .always Message.decode message .turnFinalized),
      ("turn_failed", single "TurnFailed" "error" .always Mishap.decode (.disorder "") .turnFailed),
      ("turn_cancelled",
        single "TurnCancelled" "message" .byPlace (Json.optional Message.decode) none .turnCancelled),
      ("cleared", Json.bare .cleared)]

end Notice

end Converse
