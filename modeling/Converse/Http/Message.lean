import Converse.Http.Header
import Converse.Url.Basic

/-
  Requests and responses as the client sees them.
-/

namespace Converse.Http

structure Request where
  method : String
  url : Url
  headers : List Header
  body : String
deriving DecidableEq, Repr

/-- How the body of a response ends. -/
inductive BodyEnd
  | complete
  /-- The connection was closed before the end. -/
  | broken
  /-- Nothing more comes, and the connection stays open. -/
  | never
deriving DecidableEq, Repr

structure Response where
  status : Nat
  headers : List Header
  /-- The bytes of the body, in the pieces in which they arrive. -/
  pieces : List (List UInt8)
  ending : BodyEnd
deriving DecidableEq, Repr

namespace Response

def bare (status : Nat) : Response := ⟨status, [], [], .complete⟩

def body (r : Response) : List UInt8 := r.pieces.flatten

def isWireBlank (b : UInt8) : Bool := b == 0x20 || b == 0x09

/-- A header value without the blanks around it. -/
def trimValue (value : List UInt8) : List UInt8 :=
  ((value.dropWhile isWireBlank).reverse.dropWhile isWireBlank).reverse

/-- Statuses whose responses have no body. -/
def hasNoBody (status : Nat) : Bool := status == 204 || status == 304

/-- The response as it comes off the wire. -/
def arrived (r : Response) : Response :=
  let headers := r.headers.map fun h => { h with value := trimValue h.value }
  if hasNoBody r.status then ⟨r.status, headers, [], .complete⟩ else { r with headers := headers }

end Response

end Converse.Http
