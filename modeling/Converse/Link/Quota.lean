import Converse.Http.Header
import Converse.Number.Numeral
import Converse.Text.Blank
import Converse.Json.Decode

/-
  How many requests the server still grants, as its response headers say.
  A header that is missing, no text, no numeral or out of range counts as not there.
-/

namespace Converse

structure Quota where
  limit : Option Nat
  remaining : Option Nat
  /-- When the window ends, in seconds since 1970. -/
  reset : Option Int
deriving DecidableEq, Repr

namespace Quota

def empty : Quota := ⟨none, none, none⟩

/-- The trimmed text of a header. -/
def field (headers : List Http.Header) (name : String) : Option (List Char) :=
  ((Http.Header.first? headers name).bind Http.Header.textOf).map Text.trim

def wordField (headers : List Http.Header) (name : String) : Option Nat :=
  (field headers name).bind (Numeral.unsigned (Nat.pow 2 32 - 1))

def longField (headers : List Http.Header) (name : String) : Option Int :=
  (field headers name).bind (Numeral.signed (-Nat.pow 2 63) (Nat.pow 2 63 - 1))

/-- What the headers say, or nothing if they say nothing. -/
def ofHeaders (headers : List Http.Header) : Option Quota :=
  let q : Quota :=
    { limit := wordField headers "x-ratelimit-limit"
      remaining := wordField headers "x-ratelimit-remaining"
      reset := longField headers "x-ratelimit-reset" }
  if q = empty then none else some q

/-- Whether no request is left in this window. -/
def isExhausted (q : Quota) : Bool := q.remaining == some 0

def toJson (q : Quota) : Json :=
  .object [("limit", Json.ofOption Json.natural q.limit),
    ("remaining", Json.ofOption Json.natural q.remaining),
    ("reset", Json.ofOption Json.integer q.reset)]

def shape : Json.Shape Quota :=
  { title := "struct RateLimitInfo"
    blank := empty
    fields := [
      .of "limit" .byPlace (Json.optional Json.word) fun v q => { q with limit := v },
      .of "remaining" .byPlace (Json.optional Json.word) fun v q => { q with remaining := v },
      .of "reset" .byPlace (Json.optional Json.long) fun v q => { q with reset := v }] }

def decode : Json.Decoder Quota := shape.decode

end Quota

end Converse
