import Converse.Json.Decode
import Converse.Json.Writer

/-
  What is sent to the server: one message of the user, and the conversation it belongs to, if that is known.
-/

namespace Converse

structure Question where
  message : String
  conversation : Option String
deriving DecidableEq, Repr

namespace Question

def toJson (q : Question) : Json :=
  .object [("message", .string q.message),
    ("conversation_id", Json.ofOption .string q.conversation)]

def shape : Json.Shape Question :=
  { title := "struct ChatRequest"
    blank := ⟨"", none⟩
    fields := [
      .of "message" .always Json.text fun v q => { q with message := v },
      .of "conversation_id" .byPlace (Json.optional Json.text) fun v q =>
        { q with conversation := v }] }

def decode : Json.Decoder Question := shape.decode

end Question

end Converse
