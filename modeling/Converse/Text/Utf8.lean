/-
  Bytes as text.
  `pieces` cuts a byte sequence into characters and into the shortest stretches that no character starts
  with. Reading strictly stops at the first such stretch; reading loosely puts U+FFFD in its place.
-/

namespace Converse.Text.Utf8

/-- A part of a byte sequence: a character, `length` bytes that belong to none, or a character that the
  end cuts off after `length` bytes. -/
inductive Piece
  | char (c : Char)
  | stray (length : Nat)
  | cut (length : Nat)
deriving DecidableEq, Repr

def isTail (b : UInt8) : Bool := 0x80 ≤ b && b ≤ 0xBF

/-- How many bytes a character that starts with `a` takes. -/
def width (a : UInt8) : Nat := if a ≤ 0xDF then 2 else if a ≤ 0xEF then 3 else 4

/-- Whether `b` may come second after `a`: no overlong forms, no surrogates, nothing past U+10FFFF. -/
def mayFollow (a b : UInt8) : Bool :=
  if a == 0xE0 then 0xA0 ≤ b && b ≤ 0xBF
  else if a == 0xED then 0x80 ≤ b && b ≤ 0x9F
  else if a == 0xF0 then 0x90 ≤ b && b ≤ 0xBF
  else if a == 0xF4 then 0x80 ≤ b && b ≤ 0x8F
  else isTail b

/-- The character made of a first byte and its tail bytes. -/
def assemble (a : UInt8) (tail : List UInt8) : Char :=
  let lead := match width a with
    | 2 => a.toNat % 32
    | 3 => a.toNat % 16
    | _ => a.toNat % 8
  Char.ofNat (tail.foldl (fun n b => n * 64 + b.toNat % 64) lead)

/-- A byte with no unfinished character before it. -/
def start (b : UInt8) : List Piece × List UInt8 :=
  if b < 0x80 then ([.char (Char.ofNat b.toNat)], [])
  else if 0xC2 ≤ b && b ≤ 0xF4 then ([], [b])
  else ([.stray 1], [])

/-- One more byte after the bytes `pending` of an unfinished character: the pieces it completes and the
  bytes that are pending after it. -/
def advance (pending : List UInt8) (b : UInt8) : List Piece × List UInt8 :=
  match pending with
  | [] => start b
  | a :: tail =>
    if (if tail.isEmpty then mayFollow a b else isTail b) then
      if tail.length + 2 == width a then ([.char (assemble a (tail ++ [b]))], [])
      else ([], a :: tail ++ [b])
    else
      let next := start b
      (.stray pending.length :: next.1, next.2)

def piecesAfter (pending : List UInt8) : List UInt8 → List Piece
  | [] => if pending.isEmpty then [] else [.cut pending.length]
  | b :: rest =>
    let next := advance pending b
    next.1 ++ piecesAfter next.2 rest

def pieces (bytes : List UInt8) : List Piece := piecesAfter [] bytes

/-- Where reading stops: `start` bytes are text; the bytes after them are not, or are cut off. -/
inductive Fault
  | stray (start length : Nat)
  | cut (start : Nat)
deriving DecidableEq, Repr

def Fault.message : Fault → String
  | .stray start length =>
    "invalid utf-8 sequence of " ++ toString length ++ " bytes from index " ++ toString start
  | .cut start => "incomplete utf-8 byte sequence from index " ++ toString start

/-- The characters before the first fault, and the fault, if any; `offset` bytes came before. -/
def readFrom (offset : Nat) : List Piece → List Char × Option Fault
  | [] => ([], none)
  | .char c :: rest =>
    let r := readFrom (offset + c.utf8Size) rest
    (c :: r.1, r.2)
  | .stray n :: _ => ([], some (.stray offset n))
  | .cut _ :: _ => ([], some (.cut offset))

/-- The longest text that the bytes start with, and what stops it. -/
def readFront (bytes : List UInt8) : String × Option Fault :=
  let r := readFrom 0 (pieces bytes)
  (String.ofList r.1, r.2)

/-- The whole byte sequence as text, or the first fault. -/
def read (bytes : List UInt8) : Except Fault String :=
  match readFront bytes with
  | (s, none) => .ok s
  | (_, some e) => .error e

def Piece.loose : Piece → Char
  | .char c => c
  | _ => '\uFFFD'

def readLoosely (bytes : List UInt8) : String :=
  String.ofList ((pieces bytes).map Piece.loose)

def encode (s : String) : List UInt8 := s.toUTF8.toList

end Converse.Text.Utf8
