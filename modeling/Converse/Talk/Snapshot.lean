import Converse.Talk.Message
import Converse.Talk.Mishap

/-
  A conversation as it can be observed at one moment.
-/

namespace Converse

/-- Which part of a turn a session is in. -/
inductive Stage
  | idle
  /-- The message was sent and the reply has not started. -/
  | awaiting
  | streaming
deriving DecidableEq, Repr

structure Snapshot where
  /-- The identity the server gave the conversation. -/
  conversation : Option String
  messages : History
  streaming : Bool
  /-- The text so far of the growing reply. -/
  buffer : String
  /-- The tools of the turn under way. -/
  tools : List ToolRun
  mishap : Option Mishap
  stage : Stage
deriving DecidableEq, Repr

namespace Snapshot

def initial : Snapshot := ⟨none, [], false, "", [], none, .idle⟩

def isBusy (s : Snapshot) : Bool := s.stage != .idle

def lastMessage (s : Snapshot) : Option Message := s.messages.getLast?

def Stage.name : Stage → String
  | .idle => "idle"
  | .awaiting => "awaiting_first_event"
  | .streaming => "streaming"

def Stage.decode : Json.Decoder Stage :=
  Json.choice [("idle", .idle), ("awaiting_first_event", .awaiting), ("streaming", .streaming)]

def toJson (s : Snapshot) : Json :=
  .object [("conversation_id", Json.ofOption .string s.conversation),
    ("messages", .array (s.messages.map Message.toJson)),
    ("is_streaming", .bool s.streaming),
    ("current_streaming_message", .string s.buffer),
    ("active_tools", .array (s.tools.map ToolRun.toJson)),
    ("error", Json.ofOption Mishap.toJson s.mishap),
    ("phase", .string (Stage.name s.stage))]

def shape : Json.Shape Snapshot :=
  { title := "struct ConversationState"
    blank := initial
    fields := [
      .of "conversation_id" .byPlace (Json.optional Json.text) fun v s => { s with conversation := v },
      .of "messages" .always (Json.sequence Message.decode) fun v s => { s with messages := v },
      .of "is_streaming" .always Json.flag fun v s => { s with streaming := v },
      .of "current_streaming_message" .always Json.text fun v s => { s with buffer := v },
      .of "active_tools" .always (Json.sequence ToolRun.decode) fun v s => { s with tools := v },
      .of "error" .byPlace (Json.optional Mishap.decode) fun v s => { s with mishap := v },
      .of "phase" .always Stage.decode fun v s => { s with stage := v }] }

def decode : Json.Decoder Snapshot := shape.decode

end Snapshot

end Converse
