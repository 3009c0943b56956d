import Converse.Json.Reader
import Converse.Json.Writer
import Converse.Text.Quoted

/-
  Records read from JSON.
  A decoder takes a draft, so it meets the parts of a text in the order they are written and reports the
  first thing that is wrong: a fault of the text, or a part that does not fit. A record is written as an
  object, or as an array of its fields in order; a tagged choice has its tag beside its fields.
-/

namespace Converse.Json

/-! ## Faults -/

/-- What stands where something else was expected. -/
inductive Kind
  | null
  | bool (b : Bool)
  | number (n : Number)
  | string (s : String)
  | sequence
  | map
deriving DecidableEq, Repr

def inTicks (s : String) : String := "`" ++ s ++ "`"

def Number.text (n : Number) : String := String.ofList n.chars

def Kind.text : Kind → String
  | .null => "null"
  | .bool b => "boolean " ++ inTicks (if b then "true" else "false")
  | .number (.integer n) => "integer " ++ inTicks (Number.integer n).text
  | .number (.double d) => "floating point " ++ inTicks d.text
  | .string s => "string " ++ Text.quoted s
  | .sequence => "sequence"
  | .map => "map"

/-- How a value fails to fit. -/
inductive Misfit
  | missingField (name : String)
  | duplicateField (name : String)
  | unknownVariant (name : String) (known : List String)
  | invalidType (got : Kind) (expected : String)
  | invalidValue (got : Kind) (expected : String)
  | invalidLength (length : Nat) (expected : String)
deriving DecidableEq, Repr

def oneOf : List String → String
  | [] => "there are no variants"
  | [a] => "expected " ++ inTicks a
  | [a, b] => "expected " ++ inTicks a ++ " or " ++ inTicks b
  | names => "expected one of " ++ String.intercalate ", " (names.map inTicks)

def Misfit.message : Misfit → String
  | .missingField name => "missing field " ++ inTicks name
  | .duplicateField name => "duplicate field " ++ inTicks name
  | .unknownVariant name known => "unknown variant " ++ inTicks name ++ ", " ++ oneOf known
  | .invalidType got expected => "invalid type: " ++ got.text ++ ", expected " ++ expected
  | .invalidValue got expected => "invalid value: " ++ got.text ++ ", expected " ++ expected
  | .invalidLength n expected => "invalid length " ++ toString n ++ ", expected " ++ expected

/-- Why a text gives no value: it is no JSON, or it is and does not fit. -/
inductive Fault
  | malformed
  | misfit (m : Misfit)
deriving DecidableEq, Repr

/-! ## Plain values -/

/-- Whether a text is being read, or a value that was read whole before. -/
inductive Mode
  | live
  | buffered
deriving DecidableEq, Repr

abbrev Decoder (α : Type) := Mode → Draft → Except Fault α

def Draft.kind? : Draft → Option Kind
  | .null => some .null
  | .bool b => some (.bool b)
  | .number n => some (.number n)
  | .string s => some (.string s)
  | .array _ _ => some .sequence
  | .object _ _ => some .map
  | .unfit => none
  | .broken => none

/-- The fault of a value that stands where another was expected. -/
def Draft.mismatch (d : Draft) (expected : String) : Fault :=
  match d.kind? with
  | some k => .misfit (.invalidType k expected)
  | none => .malformed

def text : Decoder String := fun _ d =>
  match d with
  | .string s => .ok s
  | d => .error (d.mismatch "a string")

def flag : Decoder Bool := fun _ d =>
  match d with
  | .bool b => .ok b
  | d => .error (d.mismatch "a boolean")

/-- An integer between bounds that have a name. -/
def bounded (name : String) (bottom top : Int) : Decoder Int := fun _ d =>
  match d with
  | .number (.integer n) =>
    if bottom ≤ n && n ≤ top then .ok n
    else .error (.misfit (.invalidValue (.number (.integer n)) name))
  | d => .error (d.mismatch name)

/-- A 32-bit number without sign. -/
def word : Decoder Nat := fun mode d => (bounded "u32" 0 (Nat.pow 2 32 - 1) mode d).map Int.toNat

/-- A 64-bit integer. -/
def long : Decoder Int := bounded "i64" (-Nat.pow 2 63) (Nat.pow 2 63 - 1)

/-- Null for none. -/
def optional {α : Type} (decode : Decoder α) : Decoder (Option α) := fun mode d =>
  match d with
  | .null => .ok none
  | d => (decode mode d).map some

/-- Null for a default. -/
def orDefault {α : Type} (decode : Decoder α) (default : α) : Decoder α := fun mode d =>
  (optional decode mode d).map (·.getD default)

def decodeAll {α : Type} (decode : Draft → Except Fault α) : List Draft → Except Fault (List α)
  | [] => .ok []
  | d :: rest =>
    match decode d with
    | .error e => .error e
    | .ok a => (decodeAll decode rest).map (a :: ·)

def sequence {α : Type} (decode : Decoder α) : Decoder (List α) := fun mode d =>
  match d with
  | .array items closed =>
    match decodeAll (decode mode) items with
    | .error e => .error e
    | .ok as => if closed then .ok as else .error .malformed
  | d => .error (d.mismatch "a sequence")

/-- An object of unknown content. -/
def freeMap : Decoder Members := fun _ d =>
  match d with
  | .object members closed =>
    match Draft.settle (.object members closed) with
    | some (.object ms) => .ok ms
    | _ => .error .malformed
  | d => .error (d.mismatch "a map")

/-- The choice of a name. -/
def named {α : Type} (choices : List (String × α)) (name : String) : Except Fault α :=
  match choices.lookup name with
  | some a => .ok a
  | none => .error (.misfit (.unknownVariant name (choices.map (·.1))))

/-- What may stand beside the name of a choice in an object. -/
def isUnit (mode : Mode) : Draft → Bool
  | .null => true
  | .object [] closed => mode == .buffered && closed
  | _ => false

/-- One of a list of named choices: its name, or an object with its name and null. -/
def choice {α : Type} (choices : List (String × α)) : Decoder α := fun mode d =>
  match d with
  | .string s => named choices s
  | .object ((some n, d) :: rest) closed =>
    if mode == .buffered && !rest.isEmpty then
      .error (.misfit (.invalidValue .map "map with a single key"))
    else match named choices n with
      | .error e => .error e
      | .ok a =>
        if !isUnit mode d then .error (d.mismatch "unit")
        else if rest.isEmpty && closed then .ok a
        else .error .malformed
  | .object [] _ =>
    match mode with
    | .live => .error .malformed
    | .buffered => .error (.misfit (.invalidValue .map "map with a single key"))
  | d =>
    match mode with
    | .live => .error .malformed
    | .buffered => .error (d.mismatch "string or map")

/-! ## Records -/

/-- When a field may be left out: never; in an object; in an array as well. -/
inductive Need
  | always
  | byPlace
  | never
deriving DecidableEq, Repr

/-- A field of a record that is built step by step. -/
structure Field (σ : Type) where
  name : String
  need : Need
  set : Mode → Draft → σ → Except Fault σ

def Field.of {α σ : Type} (name : String) (need : Need) (decode : Decoder α) (put : α → σ → σ) :
    Field σ :=
  { name := name
    need := need
    set := fun mode d r => (decode mode d).map (put · r) }

/-- A record: what it is called, the record without its fields, and the fields in order. -/
structure Shape (σ : Type) where
  title : String
  blank : σ
  fields : List (Field σ)

namespace Shape

variable {σ : Type}

/-- The record after the members, given the names of the fields already set. -/
def setMembers (shape : Shape σ) (mode : Mode) (found : List String) (r : σ) :
    List (Option String × Draft) → Except Fault (List String × σ)
  | [] => .ok (found, r)
  | (none, _) :: _ => .error .malformed
  | (some n, d) :: rest =>
    match shape.fields.find? (·.name == n) with
    | none => if d.orderly then setMembers shape mode found r rest else .error .malformed
    | some f =>
      if found.contains n then .error (.misfit (.duplicateField n))
      else match f.set mode d r with
        | .ok r => setMembers shape mode (n :: found) r rest
        | .error e => .error e

def ofMembers (shape : Shape σ) (mode : Mode) (members : List (Option String × Draft)) (closed : Bool) :
    Except Fault σ :=
  match shape.setMembers mode [] shape.blank members with
  | .error e => .error e
  | .ok (found, r) =>
    if !closed then .error .malformed
    else match shape.fields.find? (fun f => f.need == .always && !found.contains f.name) with
      | some f => .error (.misfit (.missingField f.name))
      | none => .ok r

def elements (n : Nat) : String := toString n ++ (if n == 1 then " element" else " elements")

/-- The fault of items left over. -/
def leftOver (mode : Mode) (taken left : Nat) : Fault :=
  match mode with
  | .live => .malformed
  | .buffered => .misfit (.invalidLength (taken + left) (elements taken ++ " in sequence"))

/-- The record after the items, the next field being the `i`-th. -/
def setItems (shape : Shape σ) (mode : Mode) (closed : Bool) (r : σ) :
    Nat → List (Field σ) → List Draft → Except Fault σ
  | _, [], [] => if closed then .ok r else .error .malformed
  | i, [], d :: rest => .error (leftOver mode i (d :: rest).length)
  | i, f :: fs, [] =>
    if !closed then .error .malformed
    else if f.need == .never then setItems shape mode closed r (i + 1) fs []
    else .error (.misfit (.invalidLength i
      (shape.title ++ " with " ++ elements shape.fields.length)))
  | i, f :: fs, d :: rest =>
    match f.set mode d r with
    | .ok r => setItems shape mode closed r (i + 1) fs rest
    | .error e => .error e

def decode (shape : Shape σ) : Decoder σ := fun mode d =>
  match d with
  | .object members closed => shape.ofMembers mode members closed
  | .array items closed => shape.setItems mode closed shape.blank 0 shape.fields items
  | d => .error (d.mismatch shape.title)

end Shape

/-! ## Tagged choices -/

/-- The name of the tag. -/
def tagName : String := "type"

/-- The choice that a tag names. -/
def tag {α : Type} (choices : List (String × α)) (d : Draft) : Except Fault α :=
  match d with
  | .string s => named choices s
  | d => .error (d.mismatch "variant identifier")

/-- The tag among members, and the members beside it. -/
def splitTag {α : Type} (choices : List (String × α)) (found : Option α) :
    List (Option String × Draft) → Except Fault (Option α × List (Option String × Draft))
  | [] => .ok (found, [])
  | (none, _) :: _ => .error .malformed
  | (some n, d) :: rest =>
    if n == tagName then
      if found.isSome then .error (.misfit (.duplicateField tagName))
      else match tag choices d with
        | .ok a => splitTag choices (some a) rest
        | .error e => .error e
    else if d.whole then (splitTag choices found rest).map fun r => (r.1, (some n, d) :: r.2)
    else .error .malformed

/-- A choice whose fields stand beside its tag, or after it in an array: the decoder of the chosen one gets
  the rest. -/
def tagged {α : Type} (title : String) (choices : List (String × Decoder α)) : Decoder α := fun _ d =>
  match d with
  | .object members closed =>
    match splitTag choices none members with
    | .error e => .error e
    | .ok (found, rest) =>
      if !closed then .error .malformed
      else match found with
        | some decode => decode .buffered (.object rest true)
        | none => .error (.misfit (.missingField tagName))
  | .array (d :: rest) closed =>
    match tag choices d with
    | .error e => .error e
    | .ok decode =>
      if closed && rest.all Draft.whole then decode .buffered (.array rest true)
      else .error .malformed
  | .array [] closed => .error (if closed then .misfit (.missingField tagName) else .malformed)
  | d => .error (d.mismatch title)

/-- A choice without fields: members beside its tag are not looked at. -/
def bare {α : Type} (a : α) : Decoder α := fun mode d =>
  match d with
  | .array (d :: rest) _ => .error (Shape.leftOver mode 0 (d :: rest).length)
  | _ => .ok a

/-! ## Whole texts and values -/

/-- What a text says, read as it comes. -/
def Decoder.ofText {α : Type} (decode : Decoder α) (s : String) : Except Fault α :=
  let x := Source.ofString s
  match decode .live x.draft with
  | .error e => .error e
  | .ok a => if x.ended then .ok a else .error .malformed

/-- What a value says. -/
def Decoder.ofValue {α : Type} (decode : Decoder α) (v : Json) : Except Fault α :=
  decode .buffered v.toDraft

end Converse.Json
