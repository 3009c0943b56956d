import Converse.Number.Shortest

/-
  JSON values. An object is a list of members in written order; `Members.put` keeps such a list sorted by
  name with one member a name, which is how objects of unknown content are kept.
-/

namespace Converse

/-- A JSON number: an integer that fits 64 bits, or a double. -/
inductive Json.Number
  | integer (n : Int)
  | double (d : Double)
deriving DecidableEq, Repr

inductive Json
  | null
  | bool (b : Bool)
  | number (n : Json.Number)
  | string (s : String)
  | array (items : List Json)
  | object (members : List (String × Json))
deriving Repr

namespace Json

/-! ## Equality -/

mutual

def decideEq : (a b : Json) → Decidable (a = b)
  | .null, b =>
    match b with
    | .null => isTrue rfl
    | .bool _ | .number _ | .string _ | .array _ | .object _ => isFalse (by simp)
  | .bool a, b =>
    match b with
    | .bool b => decidable_of_iff (a = b) (by simp)
    | .null | .number _ | .string _ | .array _ | .object _ => isFalse (by simp)
  | .number a, b =>
    match b with
    | .number b => decidable_of_iff (a = b) (by simp)
    | .null | .bool _ | .string _ | .array _ | .object _ => isFalse (by simp)
  | .string a, b =>
    match b with
    | .string b => decidable_of_iff (a = b) (by simp)
    | .null | .bool _ | .number _ | .array _ | .object _ => isFalse (by simp)
  | .array a, b =>
    match b with
    | .array b =>
      match decideEqItems a b with
      | isTrue h => isTrue (by rw [h])
      | isFalse h => isFalse (by simp [h])
    | .null | .bool _ | .number _ | .string _ | .object _ => isFalse (by simp)
  | .object a, b =>
    match b with
    | .object b =>
      match decideEqMembers a b with
      | isTrue h => isTrue (by rw [h])
      | isFalse h => isFalse (by simp [h])
    | .null | .bool _ | .number _ | .string _ | .array _ => isFalse (by simp)

def decideEqItems : (a b : List Json) → Decidable (a = b)
  | [], b =>
    match b with
    | [] => isTrue rfl
    | _ :: _ => isFalse (by simp)
  | v :: a, b =>
    match b with
    | [] => isFalse (by simp)
    | w :: b =>
      match decideEq v w, decideEqItems a b with
      | isTrue h, isTrue k => isTrue (by rw [h, k])
      | isFalse h, _ => isFalse (by simp [h])
      | _, isFalse k => isFalse (by simp [k])

def decideEqMembers : (a b : List (String × Json)) → Decidable (a = b)
  | [], b =>
    match b with
    | [] => isTrue rfl
    | _ :: _ => isFalse (by simp)
  | (m, v) :: a, b =>
    match b with
    | [] => isFalse (by simp)
    | (n, w) :: b =>
      match decEq m n, decideEq v w, decideEqMembers a b with
      | isTrue e, isTrue h, isTrue k => isTrue (by rw [e, h, k])
      | isFalse e, _, _ => isFalse (by simp [e])
      | _, isFalse h, _ => isFalse (by simp [h])
      | _, _, isFalse k => isFalse (by simp [k])

end

instance : DecidableEq Json := decideEq

/-! ## Members -/

/-- The members of an object of unknown content. -/
abbrev Members := List (String × Json)

def integer (n : Int) : Json := .number (.integer n)

def natural (n : Nat) : Json := .number (.integer n)

/-- A value, or null for none. -/
def ofOption {α : Type} (write : α → Json) : Option α → Json
  | some a => write a
  | none => .null

/-- Puts a member at its place, in the place of a member of the same name. -/
def Members.put (name : String) (value : Json) : Members → Members
  | [] => [(name, value)]
  | (n, v) :: rest =>
    if name < n then (name, value) :: (n, v) :: rest
    else if name == n then (name, value) :: rest
    else (n, v) :: Members.put name value rest

end Json

end Converse
