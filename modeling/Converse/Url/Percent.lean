import Converse.Json.Reader
import Converse.Text.Utf8

/-
  Percent encoding: a byte as a percent sign and two digits in base sixteen.
-/

namespace Converse.Url

def upperHex (n : Nat) : Char := (Nat.digitChar n).toUpper

def percentByte (b : UInt8) : List Char := ['%', upperHex (b.toNat / 16), upperHex (b.toNat % 16)]

/-- Writes every character that may not stand for itself byte by byte. -/
def percentEncode (stays : Char → Bool) (cs : List Char) : List Char :=
  cs.flatMap fun c =>
    if stays c then [c] else (Text.Utf8.encode c.toString).flatMap percentByte

/-- The byte of two digits in base sixteen. -/
def hexPair (a b : Char) : Option UInt8 :=
  match Json.hexValue a, Json.hexValue b with
  | some a, some b => some (UInt8.ofNat (a * 16 + b))
  | _, _ => none

/-- The bytes of a text; a percent sign without two digits stands for itself. -/
def percentDecode : List Char → List UInt8
  | [] => []
  | '%' :: a :: b :: rest =>
    match hexPair a b with
    | some n => n :: percentDecode rest
    | none => 0x25 :: percentDecode (a :: b :: rest)
  | c :: rest => Text.Utf8.encode c.toString ++ percentDecode rest

def isVisible (c : Char) : Bool := 0x20 < c.toNat && c.toNat < 0x7F

/-- Characters that stand for themselves in a path. -/
def staysInPath (c : Char) : Bool :=
  isVisible c && !(['"', '#', '<', '>', '?', '^', '\x60', '\x7b', '\x7d'].contains c)

/-- Characters that stand for themselves in a query; the quote only where the scheme is not special. -/
def staysInQuery (special : Bool) (c : Char) : Bool :=
  isVisible c && !(['"', '#', '<', '>'].contains c) && !(special && c.toNat == 0x27)

def staysInFragment (c : Char) : Bool := isVisible c && !(['"', '<', '>', '\x60'].contains c)

end Converse.Url
