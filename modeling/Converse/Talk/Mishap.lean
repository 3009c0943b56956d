import Converse.Link.Failure

/-
  The last error of a conversation, as it is shown to the user: the server reported it, the link failed, or
  the server broke the order of events.
-/

namespace Converse

structure Mishap where
  message : String
  kind : ErrorKind
  /-- Whether sending the last message again may succeed. -/
  retryable : Bool
deriving DecidableEq, Repr

namespace Mishap

def reported (message : String) (kind : ErrorKind) : Mishap :=
  ⟨message, kind, kind.passesWhenReported⟩

def ofFailure (f : Failure) : Mishap := ⟨f.description, f.kind, f.kind.passesByItself⟩

/-- The server broke the order of events. -/
def disorder (message : String) : Mishap :=
  ⟨message, .unexpected, ErrorKind.unexpected.passesByItself⟩

def text (m : Mishap) : String := m.message ++ " (" ++ m.kind.code ++ ")"

/-- Whether a new token is needed rather than another attempt. -/
def needsToken (m : Mishap) : Bool := m.kind == .authentication

def toJson (m : Mishap) : Json :=
  .object [("message", .string m.message), ("code", m.kind.toJson),
    ("is_retryable", .bool m.retryable)]

def shape : Json.Shape Mishap :=
  { title := "struct ChatError"
    blank := ⟨"", .unstated, false⟩
    fields := [
      .of "message" .always Json.text fun v m => { m with message := v },
      .of "code" .always ErrorKind.decode fun v m => { m with kind := v },
      .of "is_retryable" .always Json.flag fun v m => { m with retryable := v }] }

def decode : Json.Decoder Mishap := shape.decode

end Mishap

end Converse
