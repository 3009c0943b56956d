import Converse.Toml.Quoted

/-
  Writing settings: one line for each, its text in the first quotes that can hold it as it stands.
  Between double quotes a backslash would be an escape; three marks on each side may hold line ends and two
  marks in a row. A text that fits between no quotes is escaped between double ones.
-/

namespace Converse.Toml

/-! ## The choice of quotes -/

/-- Control characters can stand between no quotes, but for tabs and line ends. -/
def isCoded (c : Char) : Bool := !isPrintable c && c != '\n'

/-- Whether so many marks stand in a row somewhere. -/
def hasRow (count : Nat) (mark : Char) : List Char → Bool
  | [] => false
  | c :: cs => (List.replicate count mark).isPrefixOf (c :: cs) || hasRow count mark cs

/-- How many marks stand on each side. -/
def Quote.width (q : Quote) : Nat := if q.long then 3 else 1

/-- Whether a text can stand between the quotes as it is. -/
def Quote.holds (q : Quote) (cs : List Char) : Bool :=
  !cs.any isCoded && !hasRow q.width q.mark cs && (q.long || !cs.contains '\n')
    && !(q.mark == '"' && cs.contains '\\')

def quoteFor (cs : List Char) : Quote :=
  ([⟨'"', false⟩, ⟨'\'', false⟩, ⟨'"', true⟩, ⟨'\'', true⟩].find? (·.holds cs)).getD
    ⟨'"', cs.contains '\n'⟩

/-! ## Text -/

def hexDigit (n : Nat) : Char := (Nat.digitChar (n % 16)).toUpper

/-- The escapes of one letter that are written, but for that of the mark. -/
def letters : List (Char × Char) := escapes.filter fun e => e.1 != 'e' && e.1 != '"'

/-- A character between double quotes that is not their mark. -/
def writtenChar (long : Bool) (c : Char) : List Char :=
  if c == '\n' && long then [c]
  else match letters.find? (·.2 == c) with
    | some e => ['\\', e.1]
    | none =>
      if isPrintable c then [c]
      else '\\' :: 'u' :: '0' :: '0' :: [hexDigit (c.toNat / 16), hexDigit c.toNat]

/-- A text between double quotes, behind so many marks in a row. -/
def written (long : Bool) (row : Nat) : List Char → List Char
  | [] => []
  | c :: cs =>
    if c == '"' then
      (if (if long then 2 else 0) ≤ row then '\\' :: '"' :: written long 0 cs
      else '"' :: written long (row + 1) cs)
    else writtenChar long c ++ written long 0 cs

/-- A text in its quotes. A line end behind the first of them is none of the text. -/
def writtenText (s : String) : List Char :=
  let cs := s.toList
  let q := quoteFor cs
  let marks := List.replicate q.width q.mark
  let opening := if q.long && cs.contains '\n' then ['\n'] else []
  marks ++ opening ++ (if q.mark == '"' then written q.long 0 cs else cs) ++ marks

def writtenFlag (b : Bool) : List Char := (if b then "true" else "false").toList

/-- A line that gives a key its value. -/
def writtenLine (key : String) (value : List Char) : List Char :=
  key.toList ++ " = ".toList ++ value ++ ['\n']

end Converse.Toml
