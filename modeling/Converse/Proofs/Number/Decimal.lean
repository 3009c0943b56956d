import Converse.Number.Numeral
import Mathlib.Data.Nat.Digits.Defs
import Mathlib.Tactic.Ring

/-
  Decimal numerals and what they stand for.

  `Spells` is the grammar: an optional sign and at least one digit, each digit counting with the power of ten of
  its place. Reading within bounds gives exactly the numbers between them that are spelled
  (`unsigned_eq_some_iff`, `signed_eq_some_iff`), so nothing out of range is cut to fit, and the text of a
  number spells it (`spells_toString`).
-/

namespace Converse.Numeral

/-- The sum of the digits, each with the power of ten of its place; the last one counts once. -/
def magnitude (digits : List Char) : Nat :=
  Nat.ofDigits 10 (digits.reverse.map fun c => c.toNat - '0'.toNat)

def Digits (cs : List Char) : Prop := cs ≠ [] ∧ ∀ c ∈ cs, c.isDigit = true

/-- Numerals and their numbers; `negative` says whether a minus sign may stand there. -/
inductive Spells (negative : Bool) : List Char → Int → Prop
  | bare {digits : List Char} (h : Digits digits) : Spells negative digits (magnitude digits)
  | plus {digits : List Char} (h : Digits digits) : Spells negative ('+' :: digits) (magnitude digits)
  | minus {digits : List Char} (allowed : negative = true) (h : Digits digits) :
    Spells negative ('-' :: digits) (-(magnitude digits : Int))

/-! ## Digits -/

/-- Taking in digits from the left moves what is there to the left. -/
theorem valueAfter_eq (n : Nat) (digits : List Char) :
    valueAfter n digits = n * 10 ^ digits.length + magnitude digits := by
  induction digits generalizing n with
  | nil => simp [valueAfter, magnitude]
  | cons c digits ih =>
    have hv : valueAfter n (c :: digits) = valueAfter (n * 10 + (c.toNat - '0'.toNat)) digits := rfl
    rw [hv, ih, magnitude, magnitude, List.reverse_cons, List.map_append, Nat.ofDigits_append,
      List.map_singleton, Nat.ofDigits_singleton, List.length_map, List.length_reverse,
      List.length_cons]
    ring

theorem value_eq (digits : List Char) : value digits = magnitude digits := by
  rw [value, valueAfter_eq, Nat.zero_mul, Nat.zero_add]

theorem natural_eq_some_iff {cs : List Char} {n : Nat} :
    natural cs = some n ↔ Digits cs ∧ n = magnitude cs := by
  have hd : (!cs.isEmpty && cs.all Char.isDigit) = true ↔ Digits cs := by simp [Digits]
  unfold natural
  rw [value_eq]
  by_cases h : Digits cs
  · rw [if_pos (hd.mpr h)]
    simp [h, eq_comm]
  · rw [if_neg (mt hd.mp h)]
    simp [h]

/-! ## Numerals -/

theorem not_digits_plus (rest : List Char) : ¬ Digits ('+' :: rest) := fun h =>
  absurd (h.2 '+' List.mem_cons_self) (by decide)

theorem not_digits_minus (rest : List Char) : ¬ Digits ('-' :: rest) := fun h =>
  absurd (h.2 '-' List.mem_cons_self) (by decide)

theorem spells_plus_iff {negative : Bool} {rest : List Char} {n : Int} :
    Spells negative ('+' :: rest) n ↔ Digits rest ∧ n = magnitude rest := by
  constructor
  · rintro (h | h | _)
    · exact absurd h (not_digits_plus rest)
    · exact ⟨h, rfl⟩
  · rintro ⟨h, rfl⟩
    exact .plus h

theorem spells_minus_iff {negative : Bool} {rest : List Char} {n : Int} :
    Spells negative ('-' :: rest) n ↔ negative = true ∧ Digits rest ∧ n = -(magnitude rest : Int) := by
  constructor
  · rintro (h | _ | ⟨allowed, h⟩)
    · exact absurd h (not_digits_minus rest)
    · exact ⟨allowed, h, rfl⟩
  · rintro ⟨allowed, h, rfl⟩
    exact .minus allowed h

theorem spells_unsigned_iff {negative : Bool} {cs : List Char} {n : Int}
    (plus : ∀ rest, cs ≠ '+' :: rest) (hm : ∀ rest, cs ≠ '-' :: rest) :
    Spells negative cs n ↔ Digits cs ∧ n = magnitude cs := by
  constructor
  · rintro (h | _ | _)
    · exact ⟨h, rfl⟩
    · exact absurd rfl (plus _)
    · exact absurd rfl (hm _)
  · rintro ⟨h, rfl⟩
    exact .bare h

/-- **A numeral without a minus sign is read exactly** up to the top, and not at all above it. -/
theorem unsigned_eq_some_iff {top : Nat} {cs : List Char} {n : Nat} :
    unsigned top cs = some n ↔ n ≤ top ∧ Spells false cs n := by
  have hcast {ds : List Char} : ((n : Int) = (magnitude ds : Int)) ↔ n = magnitude ds := Int.ofNat_inj
  unfold unsigned
  rw [Option.filter_eq_some_iff, decide_eq_true_iff, and_comm, and_congr_right_iff]
  intro _
  split
  · next rest => rw [natural_eq_some_iff, spells_plus_iff, hcast]
  · next plus =>
    rw [natural_eq_some_iff]
    by_cases hm : ∃ rest, cs = '-' :: rest
    · obtain ⟨rest, rfl⟩ := hm
      simp [spells_minus_iff, not_digits_minus]
    · rw [spells_unsigned_iff (fun rest h => plus rest h) (fun rest h => hm ⟨rest, h⟩), hcast]

/-- **A numeral with either sign is read exactly** between the bounds, and not at all outside them. -/
theorem signed_eq_some_iff {bottom top : Int} {cs : List Char} {n : Int} :
    signed bottom top cs = some n ↔ (bottom ≤ n ∧ n ≤ top) ∧ Spells true cs n := by
  have hnat {f : Nat → Int} {ds : List Char} :
      (natural ds).map f = some n ↔ Digits ds ∧ n = f (magnitude ds) := by
    simp only [Option.map_eq_some_iff, natural_eq_some_iff]
    constructor
    · rintro ⟨_, ⟨h, rfl⟩, rfl⟩
      exact ⟨h, rfl⟩
    · rintro ⟨h, rfl⟩
      exact ⟨_, ⟨h, rfl⟩, rfl⟩
  unfold signed
  rw [Option.filter_eq_some_iff, Bool.and_eq_true, decide_eq_true_iff, decide_eq_true_iff, and_comm,
    and_congr_right_iff]
  intro _
  split
  · next rest => rw [hnat, spells_plus_iff]; rfl
  · next rest => rw [hnat, spells_minus_iff]; simp
  · next plus hm => rw [hnat, spells_unsigned_iff (fun r h => plus r h) (fun r h => hm r h)]; rfl

/-! ## The numeral of a number -/

theorem value_toDigits (n : Nat) : value (Nat.toDigits 10 n) = n := by
  have hfold : ∀ cs, value cs = Nat.ofDigitChars 10 cs 0 := by
    intro cs
    unfold value valueAfter Nat.ofDigitChars
    simp only [Nat.mul_comm]
  rw [hfold, Nat.ofDigitChars_ten_toDigits]

theorem magnitude_toDigits (n : Nat) : magnitude (Nat.toDigits 10 n) = n := by
  rw [← value_eq, value_toDigits]

theorem digits_toDigits (n : Nat) : Digits (Nat.toDigits 10 n) :=
  ⟨Nat.toDigits_ne_nil, fun _ hc => Nat.isDigit_of_mem_toDigits (by decide) (by decide) hc⟩

/-- **The text of a number spells it**; only one below zero needs a minus sign. -/
theorem spells_toString {negative : Bool} {n : Int} (h : n < 0 → negative = true) :
    Spells negative (toString n).toList n := by
  cases n with
  | ofNat m =>
    have hs : (toString (Int.ofNat m)).toList = Nat.toDigits 10 m := String.toList_ofList
    have hb : Spells negative _ _ := .bare (digits_toDigits m)
    rwa [magnitude_toDigits, ← hs] at hb
  | negSucc m =>
    have hs : (toString (Int.negSucc m)).toList = '-' :: Nat.toDigits 10 (m + 1) := by
      change ("-" ++ Nat.repr (m + 1)).toList = _
      rw [String.toList_append, Nat.repr, String.toList_ofList, String.toList_ofList]
      rfl
    have hb : Spells negative _ _ := .minus (h (Int.negSucc_lt_zero m)) (digits_toDigits (m + 1))
    rwa [magnitude_toDigits, ← hs] at hb

end Converse.Numeral
