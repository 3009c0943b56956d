import Converse.Http.Status
import Converse.Http.Message
import Converse.Link.Failure
import Converse.Text.Utf8

/-
  Why a server refused a request: the message in the body of its response, if there is one, and the quota
  in its headers. Only the front of the body is read.
-/

namespace Converse.Refusal

/-- How many bytes of a body are read. -/
def bodyLimit : Nat := 4096

/-- Takes pieces until the limit is reached. -/
def gather (sofar : List UInt8) : List (List UInt8) → List UInt8
  | [] => sofar
  | piece :: rest => if bodyLimit ≤ sofar.length then sofar else gather (sofar ++ piece) rest

/-- The front of the body that is read. -/
def front (r : Http.Response) : List UInt8 := (gather [] r.pieces).take bodyLimit

/-- Whether reading the front takes for ever. -/
def waits (r : Http.Response) : Bool :=
  r.ending == .never && (gather [] r.pieces).length < bodyLimit

/-- What the body may say: an error, or a detail. -/
def shape : Json.Shape (Option String × Option String) :=
  { title := "struct ErrorBody"
    blank := (none, none)
    fields := [
      .of "error" .byPlace (Json.optional Json.text) fun v r => (v, r.2),
      .of "detail" .byPlace (Json.optional Json.text) fun v r => (r.1, v)] }

/-- The message of a body. -/
def messageOf (bytes : List UInt8) : Option String :=
  match shape.decode.ofText (Text.Utf8.readLoosely bytes) with
  | .ok r => r.1.or r.2
  | .error _ => none

def failure (r : Http.Response) : Failure :=
  .status r.status
    ((messageOf (front r)).getD ((Http.reason? r.status).getD "request failed"))
    (Quota.ofHeaders r.headers)

end Converse.Refusal
