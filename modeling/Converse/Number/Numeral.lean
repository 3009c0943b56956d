/-
  Decimal numerals: an optional sign and at least one digit, leading zeros allowed, read within bounds.
-/

namespace Converse.Numeral

/-- The value of a digit string after `n`. -/
def valueAfter (n : Nat) (digits : List Char) : Nat :=
  digits.foldl (fun v c => v * 10 + (c.toNat - '0'.toNat)) n

def value (digits : List Char) : Nat := valueAfter 0 digits

/-- The value of a text that consists of digits, at least one. -/
def natural (cs : List Char) : Option Nat :=
  if !cs.isEmpty && cs.all Char.isDigit then some (value cs) else none

/-- A numeral with an optional plus sign, at most `top`. -/
def unsigned (top : Nat) (cs : List Char) : Option Nat :=
  let n := natural (match cs with | '+' :: rest => rest | _ => cs)
  n.filter (· ≤ top)

/-- A numeral with an optional sign, between `bottom` and `top`. -/
def signed (bottom top : Int) (cs : List Char) : Option Int :=
  let n := match cs with
    | '+' :: rest => (natural rest).map Int.ofNat
    | '-' :: rest => (natural rest).map fun n => -Int.ofNat n
    | _ => (natural cs).map Int.ofNat
  n.filter fun n => bottom ≤ n && n ≤ top

end Converse.Numeral
