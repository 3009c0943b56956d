import Converse.Json.Draft
import Converse.Number.Numeral

/-
  Reading JSON text.
  `element` reads one value; `Source.ofString` reads a whole text into a draft and says whether it ended
  there; `read?` is the value of a text. A control character in a string is a fault of the text. A number
  too large for a double, half a surrogate pair and a container nested too deep are in order as text, yet
  the text has no value.
-/

namespace Converse.Json

def isSpace (c : Char) : Bool := c == ' ' || c == '\n' || c == '\t' || c == '\r'

def skipSpace (cs : List Char) : List Char := cs.dropWhile isSpace

/-! ## Numbers -/

/-- The largest number of 64 bits. -/
def wordTop : Nat := Nat.pow 2 64 - 1

/-- The digits that fit 64 bits after `n`, their value, how many they are, and the digits left over. -/
def fitting (n : Nat) : List Char → Nat × Nat × List Char
  | [] => (n, 0, [])
  | c :: rest =>
    let next := n * 10 + (c.toNat - '0'.toNat)
    if next ≤ wordTop then
      let r := fitting next rest
      (r.1, r.2.1 + 1, r.2.2)
    else (n, 0, c :: rest)

/-- Divides by `10^308` as often as given, stopping at zero. -/
def sink : Nat → Double → Double
  | 0, d => d
  | n + 1, d =>
    if d.isZero then d else sink n ((Double.ofNat (Nat.pow 10 308)).bind d.div |>.getD d)

/-- The double of `n · 10^e`, rounded once for `n`, once for the power and once for the result; nothing if it
  is too large. -/
def tenfold (n : Nat) (e : Int) : Option Double := do
  let d ← Double.ofNat n
  if 308 < e then (if d.isZero then some d else none)
  else if 0 ≤ e then d.mul (← Double.ofNat (Nat.pow 10 e.toNat))
  else
    let steps := (-e - 1).toNat / 308
    let d := sink steps d
    if d.isZero then some d else d.div (← Double.ofNat (Nat.pow 10 ((-e).toNat - 308 * steps)))

/-- The double written by the digits before the point, the digits after it, and an exponent. Digits
  that do not fit 64 bits count as zeros before the point, and not at all after it. -/
def decimal (ahead behind : List Char) (e : Int) : Option Double :=
  let r := fitting 0 ahead
  let s := fitting r.1 behind
  tenfold s.1 (r.2.2.length - s.2.1 + e)

/-- The text of a number, cut up. -/
structure Spelling where
  negative : Bool
  ahead : List Char
  /-- The digits after the point, if there is one. -/
  behind : Option (List Char)
  /-- Whether the exponent is negative, and its digits, if there is one. -/
  power : Option (Bool × List Char)

/-- A run of digits, at least one. -/
def someDigits (cs : List Char) : Option (List Char × List Char) :=
  match cs.takeWhile Char.isDigit with
  | [] => none
  | ds => some (ds, cs.dropWhile Char.isDigit)

def fraction : List Char → Option (Option (List Char) × List Char)
  | '.' :: cs => (someDigits cs).map fun r => (some r.1, r.2)
  | cs => some (none, cs)

def isPowerMark (c : Char) : Bool := c == 'e' || c == 'E'

def power : List Char → Option (Option (Bool × List Char) × List Char)
  | c :: cs =>
    if isPowerMark c then
      match cs with
      | '-' :: cs => (someDigits cs).map fun r => (some (true, r.1), r.2)
      | '+' :: cs => (someDigits cs).map fun r => (some (false, r.1), r.2)
      | cs => (someDigits cs).map fun r => (some (false, r.1), r.2)
    else some (none, c :: cs)
  | [] => some (none, [])

/-- The spelling of the number that a text starts with: no zeros before other digits. -/
def spelling (cs : List Char) : Option (Spelling × List Char) := do
  let negative := cs.head? == some '-'
  let (ahead, cs) ← someDigits (if negative then cs.drop 1 else cs)
  if ahead.head? == some '0' && ahead.length != 1 then none
  let (behind, cs) ← fraction cs
  let (power, cs) ← power cs
  return (⟨negative, ahead, behind, power⟩, cs)

/-- The largest exponent that is looked at. -/
def powerTop : Nat := Nat.pow 2 31 - 1

/-- The double that the spelling writes, but for its sign. -/
def Spelling.magnitude (x : Spelling) : Option Double :=
  let behind := x.behind.getD []
  match x.power with
  | none => decimal x.ahead behind 0
  | some (false, ds) =>
    if Numeral.value ds ≤ powerTop then decimal x.ahead behind (Numeral.value ds)
    else if (x.ahead ++ behind).all (· == '0') then some (Double.zero false) else none
  | some (true, ds) =>
    if Numeral.value ds ≤ powerTop then decimal x.ahead behind (-(Numeral.value ds : Int))
    else some (Double.zero false)

/-- The number: an integer if it is written as one, fits 64 bits and is not minus zero. -/
def Spelling.number (x : Spelling) : Option Number :=
  let n := Numeral.value x.ahead
  if x.behind.isNone && x.power.isNone && !x.negative && n ≤ wordTop then some (.integer n)
  else if x.behind.isNone && x.power.isNone && x.negative && n != 0 && n ≤ Nat.pow 2 63 then
    some (.integer (-(n : Int)))
  else x.magnitude.map fun d => .double (if x.negative then d.neg else d)

/-! ## Strings -/

def hexValue (c : Char) : Option Nat :=
  if c.isDigit then some (c.toNat - '0'.toNat)
  else if 'a' ≤ c && c ≤ 'f' then some (c.toNat - 'a'.toNat + 10)
  else if 'A' ≤ c && c ≤ 'F' then some (c.toNat - 'A'.toNat + 10)
  else none

/-- A number of four digits in base sixteen. -/
def hexWord (a b c d : Char) : Option Nat :=
  match hexValue a, hexValue b, hexValue c, hexValue d with
  | some a, some b, some c, some d => some (((a * 16 + b) * 16 + c) * 16 + d)
  | _, _, _, _ => none

/-- One written character of a string: a character, or half a surrogate pair. -/
inductive Written
  | char (c : Char)
  | half (n : Nat)
deriving DecidableEq, Repr

def Written.ofWord (n : Nat) : Written :=
  if 0xD800 ≤ n && n ≤ 0xDFFF then .half n else .char (Char.ofNat n)

/-- The character of a short escape. -/
def shortEscape : Char → Option Char
  | '"' => some '"'
  | '\\' => some '\\'
  | '/' => some '/'
  | 'b' => some '\x08'
  | 'f' => some '\x0c'
  | 'n' => some '\n'
  | 'r' => some '\r'
  | 't' => some '\t'
  | _ => none

/-- Puts a written character before the rest of a string. -/
def Written.before (w : Option Written) (r : Option (List Written × List Char)) :
    Option (List Written × List Char) :=
  match w, r with
  | some w, some (ws, rest) => some (w :: ws, rest)
  | _, _ => none

/-- The rest of a string after its opening quote, and what follows the closing one. -/
def writtenRest : List Char → Option (List Written × List Char)
  | [] => none
  | '"' :: cs => some ([], cs)
  | '\\' :: 'u' :: a :: b :: c :: d :: cs =>
    Written.before ((hexWord a b c d).map Written.ofWord) (writtenRest cs)
  | '\\' :: c :: cs => Written.before ((shortEscape c).map Written.char) (writtenRest cs)
  | c :: cs => if c.toNat < 0x20 then none else Written.before (some (.char c)) (writtenRest cs)

/-- The text of written characters; none if half a surrogate pair stands alone. -/
def spoken : List Written → Option (List Char)
  | [] => some []
  | .char c :: rest => (spoken rest).map (c :: ·)
  | .half high :: .half low :: rest =>
    if high < 0xDC00 && 0xDC00 ≤ low then
      (spoken rest).map (Char.ofNat (0x10000 + (high - 0xD800) * 0x400 + (low - 0xDC00)) :: ·)
    else none
  | .half _ :: _ => none

/-- A string after its opening quote: the text it stands for, if any, and what follows. -/
def quotedString (cs : List Char) : Option (Option String × List Char) :=
  (writtenRest cs).map fun r => ((spoken r.1).map String.ofList, r.2)

/-! ## Values -/

/-- A value read from a text, and what follows it; nothing follows a value with a fault. -/
abbrev Reading := Draft × Option (List Char)

def broken : Reading := (.broken, none)

/-- The items of an array, blanks before the first skipped, and what follows the closing bracket if that
  was reached. -/
def items (element : List Char → Reading) : Nat → List Char → List Draft × Option (List Char)
  | 0, _ => ([], none)
  | fuel + 1, cs =>
    match element cs with
    | (d, none) => ([d], none)
    | (d, some rest) =>
      match skipSpace rest with
      | ',' :: rest =>
        let r := items element fuel (skipSpace rest)
        (d :: r.1, r.2)
      | ']' :: rest => ([d], some rest)
      | _ => ([d], none)

/-- The colon and the value of a member. -/
def memberValue (element : List Char → Reading) (cs : List Char) : Reading :=
  match skipSpace cs with
  | ':' :: rest => element (skipSpace rest)
  | _ => broken

/-- The members of an object, in the same manner. -/
def members (element : List Char → Reading) :
    Nat → List Char → List (Option String × Draft) × Option (List Char)
  | 0, _ => ([], none)
  | fuel + 1, '"' :: cs =>
    match quotedString cs with
    | none => ([], none)
    | some (name, rest) =>
      match memberValue element rest with
      | (d, none) => ([(name, d)], none)
      | (d, some rest) =>
        match skipSpace rest with
        | ',' :: rest =>
          let r := members element fuel (skipSpace rest)
          ((name, d) :: r.1, r.2)
        | '}' :: rest => ([(name, d)], some rest)
        | _ => ([(name, d)], none)
  | _ + 1, _ => ([], none)

/-- An array of at most `fuel` items after its opening bracket. -/
def arrayRest (element : List Char → Reading) (fuel : Nat) (cs : List Char) : Reading :=
  match skipSpace cs with
  | ']' :: rest => (.array [] true, some rest)
  | cs =>
    let r := items element fuel cs
    (.array r.1 r.2.isSome, r.2)

/-- An object of at most `fuel` members after its opening brace. -/
def objectRest (element : List Char → Reading) (fuel : Nat) (cs : List Char) : Reading :=
  match skipSpace cs with
  | '}' :: rest => (.object [] true, some rest)
  | cs =>
    let r := members element fuel cs
    (.object r.1 r.2.isSome, r.2)

/-- A value that is neither array nor object. -/
def scalar : List Char → Reading
  | 'n' :: 'u' :: 'l' :: 'l' :: rest => (.null, some rest)
  | 't' :: 'r' :: 'u' :: 'e' :: rest => (.bool true, some rest)
  | 'f' :: 'a' :: 'l' :: 's' :: 'e' :: rest => (.bool false, some rest)
  | '"' :: cs =>
    match quotedString cs with
    | some (some s, rest) => (.string s, some rest)
    | some (none, rest) => (.unfit, some rest)
    | none => broken
  | cs =>
    match spelling cs with
    | some (x, rest) =>
      match x.number with
      | some n => (.number n, some rest)
      | none => (.unfit, some rest)
    | none => broken

/-- A container where `room` of them may lie inside one another: too deep for a value if there is no
  room, yet read to its end. -/
def withRoom (room : Nat) (r : Reading) : Reading :=
  if room == 0 then (if r.1.orderly then .unfit else .broken, r.2) else r

/-- A value, no blanks before it. At most `room` containers of a value lie inside one another; `fuel` bounds
  how many are read inside one another, and how many parts one has. -/
def element : Nat → Nat → List Char → Reading
  | 0, _, _ => broken
  | fuel + 1, room, '[' :: rest => withRoom room (arrayRest (element fuel (room - 1)) fuel rest)
  | fuel + 1, room, '{' :: rest => withRoom room (objectRest (element fuel (room - 1)) fuel rest)
  | _ + 1, _, cs => scalar cs

/-- How many containers of a value may lie inside one another. -/
def maxDepth : Nat := 127

/-- The draft of a whole text, and whether nothing but blanks follows the value. -/
structure Source where
  draft : Draft
  ended : Bool

def Source.ofChars (cs : List Char) : Source :=
  match element (cs.length + maxDepth + 1) maxDepth (skipSpace cs) with
  | (d, some rest) => ⟨d, (skipSpace rest).isEmpty⟩
  | (d, none) => ⟨d, false⟩

def Source.ofString (s : String) : Source := .ofChars s.toList

/-- The value that a text writes. -/
def read? (s : String) : Option Json :=
  let x := Source.ofString s
  if x.ended then x.draft.settle else none

end Converse.Json
