import Converse.Toml.Scalar

/-
  Reading a settings text.
  `read?` gives the entries of the outermost table, or nothing where the text breaks a rule anywhere.
-/

namespace Converse.Toml

def skipBlanks (cs : List Char) : List Char := cs.dropWhile isBlank

/-- Skips blanks, comments and line ends; `inside` says whether the text starts inside a comment. A
  character that no comment may hold is not skipped. -/
def skipGaps (inside : Bool) : List Char → List Char
  | [] => []
  | '\n' :: cs => skipGaps false cs
  | '\r' :: '\n' :: cs => skipGaps false cs
  | c :: cs =>
    if inside then (if isPrintable c then skipGaps true cs else c :: cs)
    else if c == '#' then skipGaps true cs
    else if isBlank c then skipGaps false cs
    else c :: cs

/-- What follows the end of a line, after blanks and a comment. -/
def endLine (cs : List Char) : Option (List Char) :=
  let rest := match skipBlanks cs with
    | '#' :: cs => cs.dropWhile isPrintable
    | cs => cs
  match rest with
  | [] => some []
  | '\n' :: cs => some cs
  | '\r' :: '\n' :: cs => some cs
  | _ => none

/-! ## Keys -/

def isBareChar (c : Char) : Bool := c.isAlphanum || c == '_' || c == '-'

/-- One part of a key. -/
def keyPart : List Char → Option (String × List Char)
  | '"' :: cs => shortString '"' cs
  | '\x27' :: cs => shortString '\x27' cs
  | cs =>
    let name := cs.takeWhile isBareChar
    if name.isEmpty then none else some (String.ofList name, cs.dropWhile isBareChar)

/-- A key: its first part and those after it. -/
def readKey : Nat → List Char → Option ((String × List String) × List Char)
  | 0, _ => none
  | fuel + 1, cs => do
    let (part, cs) ← keyPart (skipBlanks cs)
    match skipBlanks cs with
    | '.' :: cs => do
      let ((next, further), cs) ← readKey fuel cs
      some ((part, next :: further), cs)
    | cs => some ((part, []), cs)

/-! ## Values -/

mutual

/-- A value; arrays and tables nest at most `room` deep in it. -/
def readValue : Nat → Nat → List Char → Option (Item × List Char)
  | 0, _, _ => none
  | fuel + 1, room, cs =>
    match cs, room with
    | '"' :: cs, _ => (anyString '"' cs).map fun r => (.text r.1, r.2)
    | '\x27' :: cs, _ => (anyString '\x27' cs).map fun r => (.text r.1, r.2)
    | '[' :: cs, room + 1 => (readArray fuel room (skipGaps false cs)).map fun cs => (.other, cs)
    | '{' :: cs, room + 1 =>
      (readTable fuel room [] (skipGaps false cs)).map fun r => (.table .closed r.1, r.2)
    | cs, _ => readScalar cs

/-- The rest of an array, at a value or at its end. -/
def readArray : Nat → Nat → List Char → Option (List Char)
  | 0, _, _ => none
  | fuel + 1, room, cs =>
    match cs with
    | ']' :: cs => some cs
    | cs => do
      let (_, cs) ← readValue fuel room cs
      match skipGaps false cs with
      | ',' :: cs => readArray fuel room (skipGaps false cs)
      | ']' :: cs => some cs
      | _ => none

/-- The rest of a table between braces, at a key or at its end. -/
def readTable : Nat → Nat → Entries → List Char → Option (Entries × List Char)
  | 0, _, _, _ => none
  | fuel + 1, room, entries, cs =>
    match cs with
    | '}' :: cs => some (entries, cs)
    | cs => do
      let ((key, further), cs) ← readKey fuel cs
      let (item, cs) ← readValue fuel room (skipBlanks (← expect '=' cs))
      let entries ← entries.add key further item
      match skipGaps false cs with
      | ',' :: cs => readTable fuel room entries (skipGaps false cs)
      | '}' :: cs => some (entries, cs)
      | _ => none

end

/-! ## The whole text -/

/-- How deep arrays and tables may nest in a value. -/
def deepest : Nat := 79

/-- Adds an item to the table of the header that is in force, if any. -/
def addUnder (header : Option (String × List String)) (entries : Entries) (key : String)
    (further : List String) (item : Item) : Option Entries :=
  match header with
  | none => entries.add key further item
  | some (first, rest) =>
    entries.atHeader (Entries.grow fun inner => inner.add key further item) first rest

/-- What a header opens, and what follows it. -/
def readHeader (fuel : Nat) (kind : Entries.Header) (cs : List Char) :
    Option ((String × List String) × List Char) := do
  let (key, cs) ← readKey fuel cs
  let cs ← expect ']' cs
  match kind with
  | .single => some (key, cs)
  | .repeated => (expect ']' cs).map fun cs => (key, cs)

/-- The lines of a text, under the header that is in force. -/
def readLines : Nat → Option (String × List String) → Entries → List Char → Option Entries
  | 0, _, _, _ => none
  | fuel + 1, header, entries, cs =>
    match skipGaps false cs with
    | [] => some entries
    | '[' :: '[' :: cs => do
      let (key, cs) ← readHeader fuel .repeated cs
      readLines fuel (some key) (← entries.openHeader .repeated key.1 key.2) (← endLine cs)
    | '[' :: cs => do
      let (key, cs) ← readHeader fuel .single cs
      readLines fuel (some key) (← entries.openHeader .single key.1 key.2) (← endLine cs)
    | cs => do
      let ((key, further), cs) ← readKey fuel cs
      let (item, cs) ← readValue fuel deepest (skipBlanks (← expect '=' cs))
      readLines fuel header (← addUnder header entries key further item) (← endLine cs)

/-- Drops the mark of byte order that may open a text. -/
def dropOrderMark : List Char → List Char
  | '\uFEFF' :: cs => cs
  | cs => cs

def read? (s : String) : Option Entries :=
  let cs := dropOrderMark s.toList
  readLines (2 * cs.length + 2) none [] cs

end Converse.Toml
