import Converse.Number.Numeral
import Converse.Toml.Quoted
import Converse.Toml.Table

/-
  Values without quotes: truth values, whole numbers, numbers with a point, and moments.
  No setting is a number or a moment, so of these only their being well formed is kept.
-/

namespace Converse.Toml

/-- Characters that a value without quotes can be made of. -/
def isAtomChar (c : Char) : Bool := !(isBlank c || "\n\r#,[]\x7b\x7d=\"'".toList.contains c)

/-! ## Numbers -/

/-- Whether a text consists of digits with single underscores between them. -/
def isGrouped (isDigit : Char → Bool) : List Char → Bool
  | [] => false
  | [c] => isDigit c
  | c :: '_' :: rest => isDigit c && isGrouped isDigit rest
  | c :: rest => isDigit c && isGrouped isDigit rest

/-- Digits of the base `base`, without the underscores, as a number. -/
def groupedValue (base : Nat) (cs : List Char) : Nat :=
  (cs.filterMap Json.hexValue).foldl (fun v d => v * base + d) 0

def isDigitOf (base : Nat) (c : Char) : Bool :=
  match Json.hexValue c with
  | some d => d < base
  | none => false

def bases : List (Char × Nat) := [('x', 16), ('o', 8), ('b', 2)]

/-- Whole numbers fit 128 bits, with or without a sign. -/
def wholeFits (negative : Bool) (n : Nat) : Bool :=
  if negative then n ≤ Nat.pow 2 127 else n < Nat.pow 2 128

/-- The least magnitude that is too large for a double. -/
def doubleLimit : Nat := Nat.pow 2 1024 - Nat.pow 2 970

/-- Whether `n · 10^e` is small enough for a double. -/
def doubleFits (n : Nat) (e : Int) : Bool :=
  let digits := (Nat.toDigits 10 n).length
  if n == 0 || digits + e ≤ 308 then true
  else if 310 < digits + e then false
  else if 0 ≤ e then n * Nat.pow 10 e.toNat < doubleLimit
  else n < doubleLimit * Nat.pow 10 (-e).toNat

/-- Takes a sign from the front. -/
def signed : List Char → Bool × List Char
  | '-' :: cs => (true, cs)
  | '+' :: cs => (false, cs)
  | cs => (false, cs)

/-- Decimal digits before a point: no zero stands in front of others. -/
def isWholePart (cs : List Char) : Bool :=
  isGrouped Char.isDigit cs && (cs.length ≤ 1 || cs.head? != some '0')

/-- The exponent of a number, zero if there is none. -/
def exponent : List Char → Option Int
  | [] => some 0
  | c :: cs =>
    let (negative, ds) := signed cs
    if (c == 'e' || c == 'E') && isGrouped Char.isDigit ds then
      some (if negative then -(groupedValue 10 ds : Int) else groupedValue 10 ds)
    else none

def isRunChar (c : Char) : Bool := c.isDigit || c == '_'

/-- Whether digits before the point and what follows them are a number. -/
def isDecimal (negative : Bool) (ahead rest : List Char) : Bool :=
  isWholePart ahead &&
  match rest with
  | [] => wholeFits negative (groupedValue 10 ahead)
  | '.' :: rest =>
    let behind := rest.takeWhile isRunChar
    isGrouped Char.isDigit behind &&
    match exponent (rest.dropWhile isRunChar) with
    | some e =>
      doubleFits (groupedValue 10 (ahead ++ behind)) (e - (behind.filter Char.isDigit).length)
    | none => false
  | rest =>
    match exponent rest with
    | some e => doubleFits (groupedValue 10 ahead) e
    | none => false

def isNumber (cs : List Char) : Bool :=
  match cs with
  | '0' :: mark :: ds =>
    match bases.lookup mark with
    | some base => isGrouped (isDigitOf base) ds && wholeFits false (groupedValue base ds)
    | none => isDecimal false (cs.takeWhile isRunChar) (cs.dropWhile isRunChar)
  | cs =>
    let (negative, body) := signed cs
    body == "inf".toList || body == "nan".toList
      || isDecimal negative (body.takeWhile isRunChar) (body.dropWhile isRunChar)

/-! ## Moments -/

/-- A number of exactly so many digits at the front. -/
def fixedDigits (count : Nat) (cs : List Char) : Option (Nat × List Char) :=
  let ds := cs.take count
  if ds.length == count && ds.all Char.isDigit then some (Numeral.value ds, cs.drop count) else none

def isLeap (year : Nat) : Bool := year % 4 == 0 && (year % 100 != 0 || year % 400 == 0)

def daysOf (year month : Nat) : Nat :=
  if month == 2 then (if isLeap year then 29 else 28)
  else if [4, 6, 9, 11].contains month then 30
  else 31

def expect (c : Char) : List Char → Option (List Char)
  | d :: cs => if c == d then some cs else none
  | [] => none

/-- What follows a date. -/
def afterDate (cs : List Char) : Option (List Char) := do
  let (year, cs) ← fixedDigits 4 cs
  let (month, cs) ← fixedDigits 2 (← expect '-' cs)
  let (day, cs) ← fixedDigits 2 (← expect '-' cs)
  if 1 ≤ month && month ≤ 12 && 1 ≤ day && day ≤ daysOf year month then some cs else none

/-- What follows a part of a second. -/
def afterFraction : List Char → Option (List Char)
  | '.' :: c :: cs => if c.isDigit then some (cs.dropWhile Char.isDigit) else none
  | '.' :: [] => none
  | cs => some cs

/-- What follows the seconds of a time; a minute may have one second too many. -/
def afterSeconds : List Char → Option (List Char)
  | ':' :: cs => do
    let (second, cs) ← fixedDigits 2 cs
    if second ≤ 60 then afterFraction cs else none
  | cs => some cs

/-- What follows a time of the day. -/
def afterTime (cs : List Char) : Option (List Char) := do
  let (hour, cs) ← fixedDigits 2 cs
  let (minute, cs) ← fixedDigits 2 (← expect ':' cs)
  if hour ≤ 23 && minute ≤ 59 then afterSeconds cs else none

/-- Whether a text is the distance of a clock from the standard one. -/
def isOffset : List Char → Bool
  | ['Z'] => true
  | ['z'] => true
  | c :: cs =>
    (c == '+' || c == '-') &&
    match fixedDigits 2 cs with
    | some (hours, ':' :: cs) =>
      match fixedDigits 2 cs with
      | some (minutes, []) => hours ≤ 23 && minutes ≤ 59
      | _ => false
    | _ => false
  | [] => false

def isDate (cs : List Char) : Bool := afterDate cs == some []

/-- Whether a text is a time of the day, a date, or both with or without an offset. -/
def isMoment (cs : List Char) : Bool :=
  afterTime cs == some [] ||
  match afterDate cs with
  | none => false
  | some [] => true
  | some (mark :: cs) =>
    (mark == 'T' || mark == 't' || mark == ' ') &&
    match afterTime cs with
    | some rest => rest.isEmpty || isOffset rest
    | none => false

/-- The value of a text without quotes. -/
def scalar (cs : List Char) : Option Item :=
  if cs == "true".toList then some (.flag true)
  else if cs == "false".toList then some (.flag false)
  else if isNumber cs || isMoment cs then some .other
  else none

/-- A value without quotes, and what stands after it. A blank may stand between a date and a time. -/
def readScalar (cs : List Char) : Option (Item × List Char) :=
  let front := cs.takeWhile isAtomChar
  match cs.dropWhile isAtomChar with
  | ' ' :: c :: rest =>
    if isDate front && c.isDigit then
      (scalar (front ++ ' ' :: (c :: rest).takeWhile isAtomChar)).map fun item =>
        (item, (c :: rest).dropWhile isAtomChar)
    else (scalar front).map fun item => (item, ' ' :: c :: rest)
  | rest => (scalar front).map fun item => (item, rest)

end Converse.Toml
