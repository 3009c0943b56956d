import Converse.Talk.ToolRun

/-
  The messages of a conversation. The history holds finished messages only, oldest first; a reply that is
  still growing is kept beside it and joins it when it is finished.
-/

namespace Converse

inductive Role
  | user
  | assistant
deriving DecidableEq, Repr

structure Message where
  id : String
  role : Role
  content : String
  /-- When it was made, in milliseconds since 1970. -/
  timestamp : Int
  /-- Whether it is a reply that is still growing. -/
  growing : Bool
  tools : Option (List ToolRun)
deriving DecidableEq, Repr

namespace Message

def user (id : String) (timestamp : Int) (content : String) : Message :=
  ⟨id, .user, content, timestamp, false, none⟩

/-- An empty reply. -/
def reply (id : String) (timestamp : Int) : Message := ⟨id, .assistant, "", timestamp, true, none⟩

def toolList (m : Message) : List ToolRun := m.tools.getD []

def append (m : Message) (content : String) : Message := { m with content := m.content ++ content }

/-- The reply once it is finished. Tools are attached if there are any. -/
def finish (m : Message) (tools : List ToolRun) : Message :=
  { m with growing := false, tools := if tools.isEmpty then none else some tools }

def Role.name : Role → String
  | .user => "user"
  | .assistant => "assistant"

def Role.decode : Json.Decoder Role := Json.choice [("user", .user), ("assistant", .assistant)]

def toJson (m : Message) : Json :=
  .object ([("id", .string m.id), ("role", .string (Role.name m.role)), ("content", .string m.content),
    ("timestamp", .integer m.timestamp), ("is_streaming", .bool m.growing)]
    ++ (match m.tools with
      | some ts => [("tools", .array (ts.map ToolRun.toJson))]
      | none => []))

def shape : Json.Shape Message :=
  { title := "struct Message"
    blank := user "" 0 ""
    fields := [
      .of "id" .always Json.text fun v m => { m with id := v },
      .of "role" .always Role.decode fun v m => { m with role := v },
      .of "content" .always Json.text fun v m => { m with content := v },
      .of "timestamp" .always Json.long fun v m => { m with timestamp := v },
      .of "is_streaming" .always Json.flag fun v m => { m with growing := v },
      .of "tools" .never (Json.optional (Json.sequence ToolRun.decode)) fun v m =>
        { m with tools := v }] }

def decode : Json.Decoder Message := shape.decode

end Message

/-- Finished messages, oldest first. -/
abbrev History := List Message

def History.lastUser (h : History) : Option Message := h.reverse.find? (·.role == .user)

end Converse
