import Converse.Number.Double

/-
  The shortest decimal text of a double precision number.
  For one, two, … digits the two decimal neighbours of the number are tried; the first that lies between
  the midpoints to the adjacent numbers is taken, of two such the nearer. `text` lays the digits
  out: positional while the first digit stands between the fifth place after the point and the sixteenth
  before it, else with an exponent.
-/

namespace Converse

/-- The decimal `digits · 10^scale`. -/
structure Decimal where
  digits : Nat
  scale : Int
deriving DecidableEq, Repr

namespace Double

/-- Three points of the line in one unit: the midpoint to the number below, the number, the midpoint to the
  number above, each as a numerator over `unit`. -/
structure Span where
  low : Nat
  mid : Nat
  high : Nat
  unit : Nat
  /-- Whether the midpoints read back as the number itself. -/
  closed : Bool

def span (d : Double) : Span :=
  let below := if d.significand == Nat.pow 2 52 && d.exponent != -1074 then 1 else 2
  let r := unscale 1 1 (2 - d.exponent)
  { low := (4 * d.significand - below) * r.1
    mid := 4 * d.significand * r.1
    high := (4 * d.significand + 2) * r.1
    unit := r.2
    closed := d.significand % 2 == 0 }

/-- The quotient `p / (q · 10^k)`. -/
def untenfold (p q : Nat) (k : Int) : Nat × Nat :=
  if 0 ≤ k then (p, q * Nat.pow 10 k.toNat) else (p * Nat.pow 10 (-k).toNat, q)

/-- The place of the first decimal digit of `p / q`: the largest `k` with `10^k ≤ p / q`. -/
def firstPlace (p q : Nat) : Int :=
  let k := (((p.log2 : Int) - q.log2) * 30103) / 100000
  let reaches (k : Int) : Bool := let r := untenfold p q k; r.2 ≤ r.1
  if reaches (k + 1) then k + 1 else if reaches k then k else k - 1

/-- Whether the decimal `c · 10^s` reads back as the number of the span. -/
def Span.holds (x : Span) (c : Nat) (s : Int) : Bool :=
  let low := untenfold x.low x.unit s
  let high := untenfold x.high x.unit s
  if x.closed then low.1 ≤ c * low.2 && c * high.2 ≤ high.1
  else low.1 < c * low.2 && c * high.2 < high.1

/-- The better of the two neighbours of the number on the grid of `10^s`, if one reads back. -/
def Span.onGrid (x : Span) (s : Int) : Option Nat :=
  let r := untenfold x.mid x.unit s
  let c := r.1 / r.2
  let nearer := nearest r.1 r.2
  if c != 0 && x.holds c s && x.holds (c + 1) s then some nearer
  else if c != 0 && x.holds c s then some c
  else if x.holds (c + 1) s then some (c + 1)
  else none

/-- The first grid with a hit among those of `n`, `n + 1`, … digits. -/
def Span.search (x : Span) (top : Int) : Nat → Nat → Decimal
  | 0, n => ⟨x.mid, top + 1 - n⟩
  | fuel + 1, n =>
    match x.onGrid (top + 1 - n) with
    | some c => if c == 10 then ⟨1, top + 2 - n⟩ else ⟨c, top + 1 - n⟩
    | none => x.search top fuel (n + 1)

/-- The shortest decimal that reads back as the number, without its sign. -/
def shortest (d : Double) : Decimal :=
  let x := d.span
  x.search (firstPlace x.mid x.unit) 17 1

end Double

def Decimal.positional (digits : List Char) (scale : Int) : List Char :=
  let point := (digits.length : Int) + scale
  if 0 ≤ scale then digits ++ List.replicate scale.toNat '0' ++ ['.', '0']
  else if 0 < point then digits.take point.toNat ++ '.' :: digits.drop point.toNat
  else '0' :: '.' :: List.replicate (-point).toNat '0' ++ digits

def Decimal.scientific (digits : List Char) (scale : Int) : List Char :=
  let place := (digits.length : Int) + scale - 1
  let tail := digits.drop 1
  digits.take 1 ++ (if tail.isEmpty then [] else '.' :: tail)
    ++ 'e' :: (if 0 ≤ place then '+' else '-') :: Nat.toDigits 10 place.natAbs

def Decimal.chars (x : Decimal) : List Char :=
  let digits := Nat.toDigits 10 x.digits
  let place := (digits.length : Int) + x.scale - 1
  if -5 ≤ place && place ≤ 15 then positional digits x.scale else scientific digits x.scale

def Double.chars (d : Double) : List Char :=
  (if d.negative then ['-'] else []) ++ (if d.isZero then ['0', '.', '0'] else d.shortest.chars)

def Double.text (d : Double) : String := String.ofList d.chars

end Converse
