import Converse.Json.Basic

/-
  A JSON text as far as it could be read.
  A draft keeps everything before the first fault of the text, so that one can say which of two faults
  comes first: one of the text, or one of what the text says. It also keeps parts that are in order as text
  but stand for no value, which matters only where the value is asked for.
-/

namespace Converse.Json

/-- A value as its text writes it: members in written order, repetitions kept, no name where a name stands
  for no text. An array or object is closed if its closing bracket was reached; its last part is `broken`
  where the fault lies inside it. -/
inductive Draft
  | null
  | bool (b : Bool)
  | number (n : Number)
  | string (s : String)
  | array (items : List Draft) (closed : Bool)
  | object (members : List (Option String × Draft)) (closed : Bool)
  /-- A number too large for a double, half a surrogate pair, or a container nested too deep. -/
  | unfit
  | broken
deriving Repr

namespace Draft

mutual

/-- Whether the text of the value is in order. -/
def orderly : Draft → Bool
  | .broken => false
  | .array items closed => closed && allOrderly items
  | .object members closed => closed && membersOrderly members
  | .null => true
  | .bool _ => true
  | .number _ => true
  | .string _ => true
  | .unfit => true

def allOrderly : List Draft → Bool
  | [] => true
  | d :: rest => orderly d && allOrderly rest

def membersOrderly : List (Option String × Draft) → Bool
  | [] => true
  | (_, d) :: rest => orderly d && membersOrderly rest

end

mutual

/-- The value: members sorted by name, the last of one name kept. -/
def settle : Draft → Option Json
  | .null => some .null
  | .bool b => some (.bool b)
  | .number n => some (.number n)
  | .string s => some (.string s)
  | .array items closed => if closed then (settleAll items).map .array else none
  | .object members closed => if closed then (settleMembers [] members).map .object else none
  | .unfit => none
  | .broken => none

def settleAll : List Draft → Option (List Json)
  | [] => some []
  | d :: rest =>
    match settle d, settleAll rest with
    | some v, some vs => some (v :: vs)
    | _, _ => none

def settleMembers (sofar : Members) : List (Option String × Draft) → Option Members
  | [] => some sofar
  | (none, _) :: _ => none
  | (some n, d) :: rest =>
    match settle d with
    | some v => settleMembers (sofar.put n v) rest
    | none => none

end

/-- Whether the text stands for a value. -/
def whole (d : Draft) : Bool := d.settle.isSome

end Draft

mutual

/-- The draft of a text that writes the value. -/
def toDraft : Json → Draft
  | .null => .null
  | .bool b => .bool b
  | .number n => .number n
  | .string s => .string s
  | .array items => .array (itemDrafts items) true
  | .object members => .object (memberDrafts members) true

def itemDrafts : List Json → List Draft
  | [] => []
  | v :: rest => toDraft v :: itemDrafts rest

def memberDrafts : List (String × Json) → List (Option String × Draft)
  | [] => []
  | (n, v) :: rest => (some n, toDraft v) :: memberDrafts rest

end

end Converse.Json
