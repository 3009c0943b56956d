import Converse.Proofs.Json.Reading
import Converse.Proofs.Number.Decimal
import Converse.Json.Writer

/-
  What is written can be read.

  The writer spells a value by the grammar that the reader reads, if its numbers are integers: a double is
  written by its shortest digits, which are not looked at here. `read?_compact` is the result: the text of a
  value has the value it was made of, once that is settled.
-/

namespace Converse.Json

/-! ## Strings -/

theorem hexWord_hexDigit : ∀ n < 0x20, hexWord '0' '0' (hexDigit (n / 16)) (hexDigit (n % 16)) = some n := by
  decide

theorem charText_escaped (c : Char) : CharText (escaped c) c := by
  unfold escaped
  by_cases hq : c = '"'
  · subst hq
    exact .short rfl
  by_cases hb : c = '\\'
  · subst hb
    exact .short rfl
  simp only [beq_iff_eq, hq, hb, if_false]
  split
  · next h => exact h ▸ .short rfl
  split
  · next h => exact h ▸ .short rfl
  split
  · next h => exact h ▸ .short rfl
  split
  · next h => exact h ▸ .short rfl
  split
  · next h => exact h ▸ .short rfl
  split
  · next h =>
    have hw := CharText.word (hexWord_hexDigit c.toNat h) (by omega)
    rwa [Char.ofNat_toNat] at hw
  · next h => exact .plain hq hb h

theorem stringText_escaped (cs : List Char) : StringText (cs.flatMap escaped) cs := by
  induction cs with
  | nil => exact .nil
  | cons c cs ih => exact .cons (charText_escaped c) ih

/-! ## Integers -/

/-- Only zero begins with a zero. -/
theorem eq_zero_of_toDigits {n : Nat} (h : (Nat.toDigits 10 n).head? = some '0') : n = 0 := by
  induction n using Nat.strongRecOn with
  | ind n ih =>
    by_cases hn : n < 10
    · rw [Nat.toDigits_of_lt_base hn] at h
      have hdigit : ∀ k < 10, [k.digitChar].head? = some '0' → k = 0 := by decide
      exact hdigit n hn h
    · have hlt : n / 10 < n := Nat.div_lt_self (by omega) (by decide)
      rw [Nat.toDigits_of_base_le (by decide) (by omega),
        List.head?_append_of_ne_nil _ Nat.toDigits_ne_nil] at h
      have := ih (n / 10) hlt h
      omega

/-- The text of an integer. -/
def integerSpelling (n : Int) : Spelling := ⟨n < 0, Nat.toDigits 10 n.natAbs, none, none⟩

theorem numberText_integer (n : Int) : NumberText (integerChars n) (integerSpelling n) := by
  have hzero : (Nat.toDigits 10 n.natAbs).head? = some '0' → Nat.toDigits 10 n.natAbs = ['0'] := by
    intro h
    rw [eq_zero_of_toDigits h]
    rfl
  have hc : integerChars n = signText (n < 0) ++ Nat.toDigits 10 n.natAbs ++ [] ++ [] := by
    unfold integerChars signText
    by_cases hn : n < 0 <;> simp [hn]
  rw [hc]
  exact .parts (Numeral.digits_toDigits n.natAbs) hzero .absent .absent

/-- An integer that the reader keeps as one. -/
def FitsWord (n : Int) : Prop := -(Nat.pow 2 63) ≤ n ∧ n ≤ wordTop

instance (n : Int) : Decidable (FitsWord n) := inferInstanceAs (Decidable (_ ∧ _))

theorem number_integer {n : Int} (h : FitsWord n) : (integerSpelling n).number = some (.integer n) := by
  have hbottom : Nat.pow 2 63 = 9223372036854775808 := rfl
  have htop : wordTop = 18446744073709551615 := rfl
  unfold FitsWord at h
  rw [hbottom, htop] at h
  unfold Spelling.number integerSpelling
  simp only [Numeral.value_toDigits, hbottom, htop, Option.isNone_none, Bool.true_and]
  by_cases hn : n < 0
  · rw [if_neg (by simp [hn]), if_pos (by simp [hn]; omega)]
    congr 2
    omega
  · rw [if_pos (by simp [hn]; omega)]
    congr 2
    omega

/-! ## Values -/

/-- Every number in the value is an integer that the reader keeps as one. -/
inductive Integral : Json → Prop
  | null : Integral .null
  | bool (b : Bool) : Integral (.bool b)
  | number {n : Int} (h : FitsWord n) : Integral (.number (.integer n))
  | string (s : String) : Integral (.string s)
  | array {items : List Json} (h : ∀ v ∈ items, Integral v) : Integral (.array items)
  | object {members : Members} (h : ∀ m ∈ members, Integral m.2) : Integral (.object members)

variable {room : Nat}

theorem Spells.bare {w : List Char} {v : Json} (h : Spells room w (.value v)) :
    Spells room w (.element v) := by
  have he := Spells.element .nil h .nil
  rwa [List.nil_append, List.append_nil] at he

theorem spells_itemChars {items : List Json} (hne : items ≠ [])
    (h : ∀ v ∈ items, Spells room v.chars (.value v)) : Spells room (itemChars items) (.items items) := by
  induction items with
  | nil => exact absurd rfl hne
  | cons v items ih =>
    obtain ⟨hv, hi⟩ := List.forall_mem_cons.mp h
    cases items with
    | nil =>
      rw [itemChars, List.isEmpty_nil, if_pos rfl, List.append_nil]
      exact .lastItem hv.bare
    | cons u items => exact .item hv.bare (ih (List.cons_ne_nil _ _) hi)

theorem spells_member {name : String} {v : Json} (h : Spells room v.chars (.value v)) :
    Spells room (stringChars name ++ ':' :: v.chars) (.member name v) := by
  have hm := Spells.member .nil (stringText_escaped name.toList) .nil h.bare
  rw [String.ofList_toList] at hm
  simpa [stringChars] using hm

theorem spells_memberChars {members : Members} (hne : members ≠ [])
    (h : ∀ m ∈ members, Spells room m.2.chars (.value m.2)) :
    Spells room (memberChars members) (.members members) := by
  induction members with
  | nil => exact absurd rfl hne
  | cons m members ih =>
    obtain ⟨n, v⟩ := m
    obtain ⟨hv, hi⟩ := List.forall_mem_cons.mp h
    cases members with
    | nil =>
      rw [memberChars, List.isEmpty_nil, if_pos rfl, List.append_nil]
      exact .lastMember (spells_member hv)
    | cons k members => exact .moreMembers (spells_member hv) (ih (List.cons_ne_nil _ _) hi)

theorem spells_chars {v : Json} (hi : v.Integral) (hd : v.depth ≤ room) :
    Spells room v.chars (.value v) := by
  induction hi generalizing room with
  | null => exact .null
  | bool b =>
    cases b with
    | true => exact .yes
    | false => exact .no
  | number h => exact .number (numberText_integer _) (number_integer h)
  | string s =>
    have hs : Spells room _ _ := .string (stringText_escaped s.toList)
    rwa [String.ofList_toList] at hs
  | @array items _ ih =>
    obtain ⟨room, rfl⟩ := Nat.exists_eq_succ_of_ne_zero (Nat.ne_zero_of_lt hd)
    have hitems := itemsDepth_le_iff.mp (Nat.le_of_succ_le_succ hd)
    cases items with
    | nil => exact .emptyArray .nil
    | cons v items => exact .array (spells_itemChars (List.cons_ne_nil _ _) fun v hv => ih v hv (hitems v hv))
  | @object members _ ih =>
    obtain ⟨room, rfl⟩ := Nat.exists_eq_succ_of_ne_zero (Nat.ne_zero_of_lt hd)
    have hmembers := membersDepth_le_iff.mp (Nat.le_of_succ_le_succ hd)
    cases members with
    | nil => exact .emptyObject .nil
    | cons m members =>
      exact .object (spells_memberChars (List.cons_ne_nil _ _) fun m hm => ih m hm (hmembers m hm))

/-- **What is written is read as what it stands for.** -/
theorem read?_compact {v : Json} (hi : v.Integral) (hd : v.depth ≤ maxDepth) :
    read? v.compact = some v.settled := by
  refine read?_eq_some_iff.mpr ⟨v, ?_, rfl⟩
  rw [compact, String.toList_ofList]
  exact (spells_chars hi hd).bare

end Converse.Json
