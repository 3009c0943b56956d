import Converse.Url.Percent
import Converse.Url.Punycode
import Converse.Text.Blank
import Converse.Text.Lowercase

/-
  The host of a URL: a name, or an address of four or of sixteen bytes.
-/

namespace Converse.Url

inductive Host
  | name (s : List Char)
  | address (n : Nat)
  | longAddress (pieces : List Nat)
deriving DecidableEq, Repr

/-- The parts of a text between separators. -/
def splitOn (sep : Char → Bool) : List Char → List (List Char)
  | [] => [[]]
  | c :: rest =>
    if sep c then [] :: splitOn sep rest
    else match splitOn sep rest with
      | part :: parts => (c :: part) :: parts
      | [] => [[c]]

/-! ## Addresses of four bytes -/

def radixValue (radix : Nat) (cs : List Char) : Option Nat :=
  cs.foldl (fun n c => do
    let n ← n
    let d ← Json.hexValue c
    if d < radix then some (n * radix + d) else none) (some 0)

/-- A number in base ten, with a leading zero in base eight, or after `0x` in base sixteen. -/
def addressPart : List Char → Option Nat
  | [] => none
  | '0' :: 'x' :: rest => radixValue 16 rest
  | '0' :: 'X' :: rest => radixValue 16 rest
  | '0' :: c :: rest => radixValue 8 (c :: rest)
  | cs => radixValue 10 cs

/-- The parts of a name, without an empty last one. -/
def nameParts (cs : List Char) : List (List Char) :=
  let parts := splitOn (· == '.') cs
  if parts.length != 1 && parts.getLast? == some [] then parts.dropLast else parts

/-- Whether the last part of a name is a number, so that the name must be an address. -/
def endsInNumber (cs : List Char) : Bool :=
  match (nameParts cs).getLast? with
  | some last => (!last.isEmpty && last.all Char.isDigit) || (addressPart last).isSome
  | none => false

/-- The address of numbers: each but the last is one byte, the last fills what is left. -/
def joinAddress (parts : List Nat) : Option Nat :=
  match parts.reverse with
  | [] => none
  | last :: front =>
    if 4 < parts.length || last ≥ Nat.pow 256 (5 - parts.length) || front.any (255 < ·) then none
    else some (last + (front.reverse.foldl (fun n p => n * 256 + p) 0) * Nat.pow 256 (5 - parts.length))

def readAddress (cs : List Char) : Option Host :=
  ((nameParts cs).mapM addressPart).bind joinAddress |>.map .address

/-! ## Addresses of sixteen bytes -/

/-- A number of at most four digits in base sixteen. -/
def piece (cs : List Char) : Option Nat :=
  if cs.isEmpty || 4 < cs.length then none else radixValue 16 cs

/-- A byte in base ten without leading zeros. -/
def plainByte (cs : List Char) : Option Nat :=
  if cs.isEmpty || 3 < cs.length || (cs.head? == some '0' && cs.length != 1) then none
  else (radixValue 10 cs).filter (· ≤ 255)

/-- The two pieces of four bytes with points between them. -/
def dottedPieces (cs : List Char) : Option (List Nat) := do
  match ← (splitOn (· == '.') cs).mapM plainByte with
  | [a, b, c, d] => some [a * 256 + b, c * 256 + d]
  | _ => none

/-- Pieces with colons between them; the last may be written as four bytes. -/
def pieces (cs : List Char) (last : Bool) : Option (List Nat) :=
  if cs.isEmpty then some []
  else
    let parts := splitOn (· == ':') cs
    let tail := parts.getLast?.getD []
    if last && tail.contains '.' then do
      return (← parts.dropLast.mapM piece) ++ (← dottedPieces tail)
    else parts.mapM piece

/-- What stands before and after the first pair of colons. -/
def splitGap (sofar : List Char) : List Char → Option (List Char × List Char)
  | ':' :: ':' :: rest => some (sofar.reverse, rest)
  | c :: rest => splitGap (c :: sofar) rest
  | [] => none

def readLongAddress (cs : List Char) : Option Host := do
  match splitGap [] cs with
  | none =>
    let ps ← pieces cs true
    if ps.length == 8 then some (.longAddress ps) else none
  | some (front, back) =>
    let front ← pieces front false
    let back ← pieces back true
    if 7 < front.length + back.length then none
    else some (.longAddress (front ++ List.replicate (8 - front.length - back.length) 0 ++ back))

/-! ## Names -/

/-- A character of a name as it counts: letters in lower case, wide forms as plain ones, the other full stops
  as points, and nothing for characters that are not seen. -/
def nameChar (c : Char) : List Char :=
  let n := c.toNat
  if [0xAD, 0x200B, 0x2060, 0x2064, 0xFEFF, 0x180B, 0x180C, 0x180D].contains n
    || (0xFE00 ≤ n && n ≤ 0xFE0F) then []
  else if n == 0x3002 || n == 0xFF0E || n == 0xFF61 then ['.']
  else if 0xFF01 ≤ n && n ≤ 0xFF5E then Text.lowerForm (Char.ofNat (n - 0xFEE0))
  else Text.lowerForm c

/-- Characters that no name holds. -/
def isForbidden (c : Char) : Bool :=
  c.toNat ≤ 0x20 || (0x7F ≤ c.toNat && c.toNat ≤ 0x9F) || c == '\uFFFD' || Text.isBlank c
    || ['#', '/', ':', '<', '>', '?', '@', '[', '\\', ']', '^', '|', '%'].contains c

/-- A part of a name in ASCII. -/
def asciiPart (cs : List Char) : List Char :=
  if cs.all (·.toNat < 0x80) then cs else 'x' :: 'n' :: '-' :: '-' :: Punycode.encode cs

def readName (cs : List Char) : Option Host :=
  match Text.Utf8.read (percentDecode cs) with
  | .error _ => none
  | .ok s =>
    let cs := s.toList.flatMap nameChar
    if cs.any isForbidden then none
    else
      let ascii := (splitOn (· == '.') cs).map asciiPart
      let whole := List.intercalate ['.'] ascii
      if whole.isEmpty then none
      else if endsInNumber whole then readAddress whole
      else some (.name whole)

/-- Characters that no host holds where the scheme is not special. -/
def isBarred (c : Char) : Bool :=
  [0x00, 0x09, 0x0A, 0x0D, 0x20].contains c.toNat
    || ['#', '/', ':', '<', '>', '?', '@', '[', '\\', ']', '^', '|'].contains c

/-- A host as it stands, where the scheme is not special. -/
def readVerbatim (cs : List Char) : Option Host :=
  if cs.isEmpty || cs.any isBarred then none
  else some (.name (percentEncode (fun c => 0x20 ≤ c.toNat && c.toNat < 0x7F) cs))

/-- The host that a text writes. -/
def Host.read (special : Bool) (cs : List Char) : Option Host :=
  match cs with
  | '[' :: rest =>
    if rest.getLast? == some ']' then readLongAddress rest.dropLast else none
  | cs => if special then readName cs else readVerbatim cs

/-! ## Text -/

def addressChars (n : Nat) : List Char :=
  List.intercalate ['.'] ([n / 0x1000000, n / 0x10000 % 256, n / 0x100 % 256, n % 256].map (Nat.toDigits 10))

/-- How many zeros a list starts with. -/
def zerosAhead (ps : List Nat) : Nat := (ps.takeWhile (· == 0)).length

/-- Where the longest run of zeros starts, and how long it is; the first of equals. -/
def longestZeros (ps : List Nat) : Nat × Nat :=
  (List.range ps.length).foldl (fun best i =>
    let n := zerosAhead (ps.drop i)
    if best.2 < n then (i, n) else best) (0, 0)

def pieceChars (ps : List Nat) : List Char := List.intercalate [':'] (ps.map (Nat.toDigits 16))

def longAddressChars (ps : List Nat) : List Char :=
  let (i, n) := longestZeros ps
  if n < 2 then pieceChars ps else pieceChars (ps.take i) ++ ':' :: ':' :: pieceChars (ps.drop (i + n))

def Host.chars : Host → List Char
  | .name s => s
  | .address n => addressChars n
  | .longAddress ps => '[' :: longAddressChars ps ++ [']']

end Converse.Url
