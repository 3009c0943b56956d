/-
  Names outside ASCII in ASCII letters: the characters that are ASCII, then the others as a number that
  says, from the smallest character on, how far to count to the next insertion.
-/

namespace Converse.Url.Punycode

/-- The digit of a number below 36: letters first, then figures. -/
def digit (n : Nat) : Char :=
  if n < 26 then Char.ofNat ('a'.toNat + n) else Char.ofNat ('0'.toNat + (n - 26))

def threshold (place bias : Nat) : Nat :=
  if place ≤ bias + 1 then 1 else if bias + 26 ≤ place then 26 else place - bias

/-- A number in digits of growing weight; at most `fuel` of them. -/
def digits (bias : Nat) : Nat → Nat → Nat → List Char
  | 0, _, _ => []
  | fuel + 1, place, q =>
    let t := threshold place bias
    if q < t then [digit q]
    else digit (t + (q - t) % (36 - t)) :: digits bias fuel (place + 36) ((q - t) / (36 - t))

def adaptLoop : Nat → Nat → Nat → Nat
  | 0, k, delta => k + 36 * delta / (delta + 38)
  | fuel + 1, k, delta =>
    if 455 < delta then adaptLoop fuel (k + 36) (delta / 35) else k + 36 * delta / (delta + 38)

/-- The bias after an insertion into `length` characters. -/
def adapt (delta length : Nat) (first : Bool) : Nat :=
  let delta := if first then delta / 700 else delta / 2
  adaptLoop delta 0 (delta + delta / length)

structure State where
  next : Nat
  delta : Nat
  bias : Nat
  handled : Nat
  output : List Char

/-- Goes over the characters once and writes those equal to the next one to insert. -/
def State.pass (basic : Nat) (cs : List Char) (x : State) : State :=
  cs.foldl (fun x c =>
    if c.toNat < x.next then { x with delta := x.delta + 1 }
    else if c.toNat == x.next then
      { x with
        delta := 0
        bias := adapt x.delta (x.handled + 1) (x.handled == basic)
        handled := x.handled + 1
        output := x.output ++ digits x.bias (x.delta + 1) 36 x.delta }
    else x) x

def insertAll (basic : Nat) (cs : List Char) : Nat → State → State
  | 0, x => x
  | fuel + 1, x =>
    match (cs.map Char.toNat).filter (x.next ≤ ·) |>.min? with
    | none => x
    | some m =>
      let x := { x with delta := x.delta + (m - x.next) * (x.handled + 1), next := m }
      let x := x.pass basic cs
      insertAll basic cs fuel { x with delta := x.delta + 1, next := m + 1 }

def encode (cs : List Char) : List Char :=
  let basic := cs.filter (·.toNat < 0x80)
  let start : State :=
    { next := 0x80, delta := 0, bias := 72, handled := basic.length
      output := if basic.isEmpty then [] else basic ++ ['-'] }
  (insertAll basic.length cs cs.length start).output

end Converse.Url.Punycode
