/-
  Header fields of an HTTP message.
  Names are compared without regard to letter case. A value is any bytes; it is a text if every byte of
  it is a tab or visible ASCII.
-/

namespace Converse.Http

structure Header where
  name : String
  value : List UInt8
deriving DecidableEq, Repr

def lowerName (name : String) : List Char := name.toList.map Char.toLower

namespace Header

/-- The value of the first field of a name. -/
def first? (headers : List Header) (name : String) : Option (List UInt8) :=
  (headers.find? fun h => lowerName h.name == lowerName name).map (·.value)

/-- Bytes that a field value may hold as text. -/
def isTextByte (b : UInt8) : Bool := b == 0x09 || (0x20 ≤ b && b ≤ 0x7E)

/-- A field value as text. -/
def textOf (value : List UInt8) : Option (List Char) :=
  if value.all isTextByte then some (value.map fun b => Char.ofNat b.toNat) else none

end Header

end Converse.Http
