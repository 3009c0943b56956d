import Converse.Json.Reader

/-
  Text between quotes in a settings text.
  The reader is an automaton: `Quote.move` says what one more character does. Between double quotes a
  backslash starts an escape; three marks on each side make a long string, which may hold line ends and
  up to two marks in a row. A long string may end in one or two marks of its own before the closing three.
-/

namespace Converse.Toml

/-- A way of quoting. -/
structure Quote where
  mark : Char
  long : Bool
deriving DecidableEq, Repr

/-- Where the reader stands inside quotes. -/
inductive Spot
  | plain
  /-- After a backslash. -/
  | escape
  /-- In the number of a character: digits to come, and the value so far. -/
  | number (digits value : Nat)
  /-- After marks that may or may not close a long string. -/
  | marks (count : Nat)
  /-- After a carriage return, which only a line feed may follow. -/
  | returned
  /-- In the gap after a backslash that ends a line, and whether the line end was seen. -/
  | gap (crossed : Bool)
  /-- After a carriage return in such a gap. -/
  | gapReturned
deriving DecidableEq, Repr

/-- What one more character does. -/
inductive Move
  | go (text : List Char) (next : Spot)
  /-- The character closes the string. -/
  | closes (text : List Char)
  /-- The string was closed before the character. -/
  | closed (text : List Char)
  | fault
deriving DecidableEq, Repr

/-- Adds text in front of that of a move. -/
def Move.after (front : List Char) : Move → Move
  | .go text next => .go (front ++ text) next
  | .closes text => .closes (front ++ text)
  | .closed text => .closed (front ++ text)
  | .fault => .fault

/-- Characters that stand in a string or a comment as they are. -/
def isPrintable (c : Char) : Bool := c == '\t' || (0x20 ≤ c.toNat && c.toNat != 0x7F)

def isBlank (c : Char) : Bool := c == ' ' || c == '\t'

/-- The character with a number, if there is one. -/
def charOf (n : Nat) : Option Char := if n.isValidChar then some (Char.ofNat n) else none

/-- The escapes of one letter. -/
def escapes : List (Char × Char) :=
  [('b', '\x08'), ('t', '\t'), ('n', '\n'), ('f', '\x0C'), ('r', '\r'), ('e', '\x1B'), ('"', '"'),
    ('\\', '\\')]

/-- The escapes by number, and how many digits they have. -/
def numbered : List (Char × Nat) := [('x', 2), ('u', 4), ('U', 8)]

namespace Quote

/-- A character that nothing before it bears on. -/
def plainMove (q : Quote) (c : Char) : Move :=
  if c == q.mark then (if q.long then .go [] (.marks 1) else .closes [])
  else if c == '\\' && q.mark == '"' then .go [] .escape
  else if c == '\n' && q.long then .go ['\n'] .plain
  else if c == '\r' && q.long then .go [] .returned
  else if isPrintable c then .go [c] .plain
  else .fault

/-- A character after a backslash. -/
def escapeMove (q : Quote) (c : Char) : Move :=
  match escapes.lookup c, numbered.lookup c with
  | some d, _ => .go [d] .plain
  | none, some digits => .go [] (.number digits 0)
  | none, none =>
    if !q.long then .fault
    else if isBlank c then .go [] (.gap false)
    else if c == '\n' then .go [] (.gap true)
    else if c == '\r' then .go [] .gapReturned
    else .fault

/-- A digit of the number of a character. -/
def numberMove (digits value : Nat) (c : Char) : Move :=
  match Json.hexValue c with
  | none => .fault
  | some d =>
    let value := value * 16 + d
    if digits ≤ 1 then
      match charOf value with
      | some c => .go [c] .plain
      | none => .fault
    else .go [] (.number (digits - 1) value)

def gapMove (q : Quote) (crossed : Bool) (c : Char) : Move :=
  if isBlank c then .go [] (.gap crossed)
  else if c == '\n' then .go [] (.gap true)
  else if c == '\r' then .go [] .gapReturned
  else if crossed then q.plainMove c
  else .fault

/-- A character after so many marks of a long string. -/
def marksMove (q : Quote) (count : Nat) (c : Char) : Move :=
  if c == q.mark then
    (if 4 ≤ count then .closes [q.mark, q.mark] else .go [] (.marks (count + 1)))
  else if count < 3 then (q.plainMove c).after (List.replicate count q.mark)
  else .closed (List.replicate (count - 3) q.mark)

def move (q : Quote) : Spot → Char → Move
  | .plain, c => q.plainMove c
  | .escape, c => q.escapeMove c
  | .number digits value, c => numberMove digits value c
  | .marks count, c => q.marksMove count c
  | .returned, c => if c == '\n' then .go ['\n'] .plain else .fault
  | .gap crossed, c => q.gapMove crossed c
  | .gapReturned, c => if c == '\n' then .go [] (.gap true) else .fault

/-- The text up to the closing quote, and what stands after it. -/
def read (q : Quote) : Spot → List Char → Option (List Char × List Char)
  | .marks count, [] => if 3 ≤ count then some (List.replicate (count - 3) q.mark, []) else none
  | _, [] => none
  | spot, c :: cs =>
    match q.move spot c with
    | .go text next => (read q next cs).map fun r => (text ++ r.1, r.2)
    | .closes text => some (text, cs)
    | .closed text => some (text, c :: cs)
    | .fault => none

end Quote

/-- Drops a line end that opens a text. -/
def dropLineEnd : List Char → List Char
  | '\n' :: cs => cs
  | '\r' :: '\n' :: cs => cs
  | cs => cs

/-- A string on one line. -/
def shortString (mark : Char) (cs : List Char) : Option (String × List Char) :=
  (Quote.read ⟨mark, false⟩ .plain cs).map fun r => (String.ofList r.1, r.2)

/-- A string after its first mark; two more of them open a long one. -/
def anyString (mark : Char) (cs : List Char) : Option (String × List Char) :=
  match cs with
  | a :: b :: rest =>
    if a == mark && b == mark then
      (Quote.read ⟨mark, true⟩ .plain (dropLineEnd rest)).map fun r => (String.ofList r.1, r.2)
    else shortString mark cs
  | _ => shortString mark cs

end Converse.Toml
