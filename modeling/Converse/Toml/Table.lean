/-
  Tables of a settings text.
  A table remembers how it came to be, for that decides what may still be added to it: a table is
  written once, under its own header or through the dotted keys of one place, and a table in braces
  is closed for good.
-/

namespace Converse.Toml

/-- How a table came to be. -/
inductive Origin
  /-- Only the headers of tables inside it were seen so far. -/
  | implied
  /-- By a dotted key. -/
  | dotted
  /-- By its own header. -/
  | headed
  /-- Written between braces. -/
  | closed
deriving DecidableEq, Repr

/-- What stands under a key. -/
inductive Item
  | text (s : String)
  | flag (b : Bool)
  /-- A number, a moment or an array: no setting has such a value. -/
  | other
  | table (made : Origin) (entries : List (String × Item))
  /-- Tables under the same header; only the last of them can grow. -/
  | tables (last : List (String × Item))

/-- The entries of a table, in the order of their keys' first appearance. -/
abbrev Entries := List (String × Item)

namespace Entries

/-- Puts an item in the place of the one under a key, or at the end. -/
def put (key : String) (item : Item) : Entries → Entries
  | [] => [(key, item)]
  | e :: rest => if e.1 == key then (key, item) :: rest else e :: put key item rest

/-- Adds an item under a dotted key, given as its first part and those after it. -/
def add (entries : Entries) (key : String) (further : List String) (item : Item) : Option Entries :=
  match further with
  | [] => if (entries.lookup key).isSome then none else some (entries ++ [(key, item)])
  | next :: further =>
    match entries.lookup key with
    | none => (add [] next further item).map fun inner => entries ++ [(key, .table .dotted inner)]
    | some (.table .dotted inner) =>
      (add inner next further item).map fun inner => entries.put key (.table .dotted inner)
    | some (.table .implied inner) =>
      if further.isEmpty then none
      else (add inner next further item).map fun inner => entries.put key (.table .implied inner)
    | some (.tables last) =>
      if further.isEmpty then none
      else (add last next further item).map fun last => entries.put key (.tables last)
    | some _ => none

/-- The headers of a text. -/
inductive Header
  | single
  | repeated
deriving DecidableEq, Repr

/-- What a header makes of the item under the last part of its key. -/
def headed : Header → Option Item → Option Item
  | .single, none => some (.table .headed [])
  | .single, some (.table .implied inner) => some (.table .headed inner)
  | .repeated, none => some (.tables [])
  | .repeated, some (.tables _) => some (.tables [])
  | _, _ => none

/-- Changes the table that a header's key leads to, or the item under its last part. -/
def atHeader (change : Option Item → Option Item) (entries : Entries) (key : String)
    (further : List String) : Option Entries :=
  match further with
  | [] => (change (entries.lookup key)).map fun item => entries.put key item
  | next :: further =>
    match entries.lookup key with
    | none =>
      (atHeader change [] next further).map fun inner => entries ++ [(key, .table .implied inner)]
    | some (.table .closed _) => none
    | some (.table made inner) =>
      (atHeader change inner next further).map fun inner => entries.put key (.table made inner)
    | some (.tables last) =>
      (atHeader change last next further).map fun last => entries.put key (.tables last)
    | some _ => none

/-- Opens the table of a header. -/
def openHeader (header : Header) (entries : Entries) (key : String) (further : List String) :
    Option Entries :=
  atHeader (headed header) entries key further

/-- Changes the entries of a table that can grow. -/
def grow (change : Entries → Option Entries) : Option Item → Option Item
  | some (.table made inner) => (change inner).map (.table made)
  | some (.tables last) => (change last).map .tables
  | _ => none

end Entries

end Converse.Toml
