/-
  The switch that stops the turn under way from outside.
  Every turn has a signal of its own, numbered in order; the switch fires the one installed last, so a
  stop that comes late cannot reach the turn after it.
-/

namespace Converse

structure Switch where
  /-- The signal of the latest turn. -/
  installed : Nat
  /-- Which signals have fired, by number. Signal 0 belongs to no turn. -/
  fired : List Bool
  /-- Whether a turn is under way. -/
  running : Bool
deriving DecidableEq, Repr

namespace Switch

def initial : Switch := ⟨0, [false], false⟩

/-- Installs a new signal for a turn that begins. -/
def begin (s : Switch) : Switch :=
  { installed := s.fired.length, fired := s.fired ++ [false], running := true }

def hasFired (s : Switch) (signal : Nat) : Bool := s.fired[signal]?.getD false

def fire (s : Switch) (signal : Nat) : Switch := { s with fired := s.fired.set signal true }

/-- Fires the signal of the latest turn. -/
def stop (s : Switch) : Switch := s.fire s.installed

def rest (s : Switch) : Switch := { s with running := false }

/-- A signal that was not given out yet has not fired. -/
theorem hasFired_of_le {s : Switch} {i : Nat} (h : s.fired.length ≤ i) : s.hasFired i = false := by
  unfold hasFired
  rw [List.getElem?_eq_none h]
  rfl

theorem hasFired_fire {s : Switch} {i : Nat} (hi : i < s.fired.length) (k : Nat) :
    (s.fire i).hasFired k = true ↔ k = i ∨ s.hasFired k = true := by
  unfold hasFired fire
  by_cases h : k = i
  · subst h
    simp [hi]
  · simp [h, List.getElem?_set_ne (Ne.symm h)]

theorem hasFired_begin (s : Switch) (k : Nat) :
    s.begin.hasFired k = true ↔ s.hasFired k = true := by
  unfold hasFired begin
  by_cases h : k < s.fired.length
  · simp [List.getElem?_append_left h]
  · have hr : s.fired.length ≤ k := by omega
    rw [List.getElem?_append_right hr, List.getElem?_eq_none hr]
    cases k - s.fired.length <;> simp

/-- The signal of a turn that begins has not fired. -/
theorem hasFired_begin_new (s : Switch) : s.begin.hasFired s.fired.length = false := by
  simp [hasFired, begin]

end Switch

end Converse
