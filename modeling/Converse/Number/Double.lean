/-
  Double precision numbers in exact arithmetic.
  A number is a sign, a significand and a power of two. `ofRatio` is the nearest number to a quotient of
  natural numbers, a half going to the even neighbour; products and quotients are rounded by it.
-/

namespace Converse

/-- The number `± significand · 2^exponent`: the significand lies in `[2^52, 2^53)`, or below that with the
  exponent `-1074`; zero has the exponent `0`. -/
structure Double where
  negative : Bool
  significand : Nat
  exponent : Int
deriving DecidableEq, Repr

namespace Double

def zero (negative : Bool) : Double := ⟨negative, 0, 0⟩

def isZero (d : Double) : Bool := d.significand == 0

/-- The natural number nearest to `p / q`, a half going to the even neighbour. -/
def nearest (p q : Nat) : Nat :=
  if 2 * (p % q) < q || (2 * (p % q) == q && p / q % 2 == 0) then p / q else p / q + 1

/-- The quotient `p / (q · 2^e)`. -/
def unscale (p q : Nat) (e : Int) : Nat × Nat :=
  if 0 ≤ e then (p, q * Nat.pow 2 e.toNat) else (p * Nat.pow 2 (-e).toNat, q)

/-- The power of two of the number nearest to `p / q`, before rounding. -/
def scaleOf (p q : Nat) : Int :=
  let e : Int := (p.log2 : Int) - q.log2 - 52
  let r := unscale p q e
  max (if r.1 < r.2 * Nat.pow 2 52 then e - 1 else e) (-1074)

/-- The number nearest to `± p / q`, or nothing if it is too large. -/
def ofRatio (negative : Bool) (p q : Nat) : Option Double :=
  let e := scaleOf p q
  let r := unscale p q e
  let m := nearest r.1 r.2
  if m == 0 then some (zero negative)
  else if m == Nat.pow 2 53 then (if 971 ≤ e then none else some ⟨negative, Nat.pow 2 52, e + 1⟩)
  else if 971 < e then none
  else some ⟨negative, m, e⟩

def ofNat (n : Nat) : Option Double := ofRatio false n 1

/-- The number nearest to `± (p / q) · 2^e`. -/
def ofScaled (negative : Bool) (p q : Nat) (e : Int) : Option Double :=
  let r := unscale p q (-e)
  ofRatio negative r.1 r.2

def mul (a b : Double) : Option Double :=
  ofScaled (a.negative != b.negative) (a.significand * b.significand) 1 (a.exponent + b.exponent)

/-- The quotient by a number that is not zero. -/
def div (a b : Double) : Option Double :=
  ofScaled (a.negative != b.negative) a.significand b.significand (a.exponent - b.exponent)

def neg (d : Double) : Double := { d with negative := !d.negative }

end Double

end Converse
