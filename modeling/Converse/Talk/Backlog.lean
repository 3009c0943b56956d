/-
  What an observer finds who looks only now and then.
  Of the things announced since the last look only so many are kept; the oldest are lost, and the observer is
  told how many.
-/

namespace Converse.Backlog

/-- The least power of two that is not below `n`, among those up to `2 ^ fuel`. -/
def powerFrom (power n : Nat) : Nat → Nat
  | 0 => power
  | fuel + 1 => if n ≤ power then power else powerFrom (2 * power) n fuel

/-- How many things are kept for a wanted capacity: the next power of two, at least one. -/
def room (capacity : Nat) : Nat := powerFrom 1 capacity capacity

/-- How many are lost, and the ones that are kept. -/
def look {α : Type} (capacity : Nat) (announced : List α) : Nat × List α :=
  let lost := announced.length - room capacity
  (lost, announced.drop lost)

end Converse.Backlog
