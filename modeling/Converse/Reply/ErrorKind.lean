import Converse.Json.Decode

/-
  Kinds of error, shared by the errors that the server reports and those of the link to it.
  Each kind has a code; a code that is not known is kept as it came.
-/

namespace Converse

inductive ErrorKind
  | authentication
  | validation
  | agent
  | storage
  | unexpected
  | other (code : String)
deriving DecidableEq, Repr

namespace ErrorKind

def code : ErrorKind → String
  | .authentication => "AUTH_FAILED"
  | .validation => "VALIDATION_ERROR"
  | .agent => "AGENT_ERROR"
  | .storage => "REDIS_ERROR"
  | .unexpected => "INTERNAL_ERROR"
  | .other code => code

/-- The kinds that have a code of their own. -/
def known : List ErrorKind := [.authentication, .validation, .agent, .storage, .unexpected]

def ofCode (code : String) : ErrorKind :=
  (known.find? (·.code == code)).getD (.other code)

/-- The kind of an error whose code is not given. -/
def unstated : ErrorKind := .unexpected

/-- The nearest kind to an HTTP status. -/
def ofStatus (status : Nat) : ErrorKind :=
  if status == 401 then .authentication
  else if status == 400 then .validation
  else if 500 ≤ status then .agent
  else .unexpected

/-- Whether sending the same message again may succeed after a failure of the link. -/
def passesByItself : ErrorKind → Bool
  | .agent | .storage | .unexpected => true
  | _ => false

/-- Whether it may succeed after the server itself reported the error. -/
def passesWhenReported : ErrorKind → Bool
  | .agent | .storage => true
  | _ => false

def toJson (k : ErrorKind) : Json := .string k.code

def decode : Json.Decoder ErrorKind := fun mode d => (Json.text mode d).map ofCode

theorem ofCode_code_of_known {k : ErrorKind} (h : k ∈ known) : ofCode k.code = k := by
  simp [known] at h
  rcases h with rfl | rfl | rfl | rfl | rfl <;> rfl

theorem code_ofCode (code : String) : (ofCode code).code = code := by
  unfold ofCode
  cases h : known.find? (·.code == code) with
  | none => rfl
  | some k => simpa using List.find?_some h

end ErrorKind

end Converse
