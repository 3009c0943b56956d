import Converse.Text.Blank
import Mathlib.Data.List.DropRight

/-
  What trimming takes away, and what it leaves.

  Blanks around a text are all that goes, and no blank is left at either end (`exists_trim`, `trim_surrounded`).
  The first word of a text is the same whatever blanks stand before it and whatever follows the blank after it
  (`firstWord_surrounded`).
-/

namespace Converse.Text

def Blanks (cs : List Char) : Prop := ∀ c ∈ cs, isBlank c = true

/-- No blank stands at the front. -/
def StartsSolid (cs : List Char) : Prop := ∀ c, cs.head? = some c → isBlank c = false

/-- No blank stands at the back. -/
def EndsSolid (cs : List Char) : Prop := ∀ c, cs.getLast? = some c → isBlank c = false

/-! ## The front -/

theorem trimFront_of_solid {cs : List Char} (h : StartsSolid cs) : trimFront cs = cs := by
  cases cs with
  | nil => rfl
  | cons c rest => exact trimFront_cons_of_not_blank (h c rfl) rest

theorem trimFront_of_blanks {cs : List Char} (h : Blanks cs) : trimFront cs = [] := by
  have ht := trimFront_append_of_blank h []
  rwa [List.append_nil] at ht

theorem startsSolid_trimFront (cs : List Char) : StartsSolid (trimFront cs) := by
  intro c hc
  have hd := List.head?_dropWhile_not isBlank cs
  change (cs.dropWhile isBlank).head? = some c at hc
  rw [hc] at hd
  exact hd

/-- The first character that is no blank is the first one left. -/
theorem head?_trimFront (cs : List Char) : (trimFront cs).head? = cs.find? (!isBlank ·) := by
  induction cs with
  | nil => rfl
  | cons c cs ih =>
    cases hc : isBlank c with
    | true =>
      rw [List.find?_cons_of_neg (by simp [hc]), ← ih]
      simp [trimFront, hc]
    | false =>
      rw [List.find?_cons_of_pos (by simp [hc]), trimFront_cons_of_not_blank hc, List.head?_cons]

/-! ## The back -/

theorem trimBack_append {p : List Char} (h : EndsSolid p) (q : List Char) :
    trimBack (p ++ q) = p ++ trimBack q := by
  have hp : p.reverse.dropWhile isBlank = p.reverse := by
    have hs : StartsSolid p.reverse := fun c hc => h c (by rwa [List.head?_reverse] at hc)
    exact trimFront_of_solid hs
  unfold trimBack
  rw [List.reverse_append, List.dropWhile_append, hp]
  split
  · next he => rw [List.isEmpty_iff.mp he, List.reverse_reverse, List.reverse_nil, List.append_nil]
  · rw [List.reverse_append, List.reverse_reverse]

theorem trimBack_prefix (cs : List Char) : trimBack cs <+: cs := List.rdropWhile_prefix isBlank cs

theorem endsSolid_trimBack (cs : List Char) : EndsSolid (trimBack cs) := by
  intro c hc
  rw [trimBack, List.getLast?_reverse] at hc
  exact startsSolid_trimFront cs.reverse c hc

theorem trimBack_of_blanks {cs : List Char} (h : Blanks cs) : trimBack cs = [] := by
  have hr : Blanks cs.reverse := fun c hc => h c (List.mem_reverse.mp hc)
  have ht : cs.reverse.dropWhile isBlank = [] := trimFront_of_blanks hr
  rw [trimBack, ht, List.reverse_nil]

/-! ## Both ends -/

theorem startsSolid_trim (cs : List Char) : StartsSolid (trim cs) := by
  intro c hc
  obtain ⟨tail, ht⟩ := trimBack_prefix (trimFront cs)
  refine startsSolid_trimFront cs c ?_
  rw [← ht, List.head?_append, show (trimBack (trimFront cs)).head? = some c from hc, Option.some_or]

/-- A text begins, once trimmed, with its first character that is no blank. -/
theorem head?_trim (cs : List Char) : (trim cs).head? = cs.find? (!isBlank ·) := by
  rw [← head?_trimFront, trim]
  cases h : trimFront cs with
  | nil => rfl
  | cons c rest =>
    have hc : isBlank c = false := startsSolid_trimFront cs c (by rw [h, List.head?_cons])
    have hs : EndsSolid [c] := by simpa [EndsSolid] using hc
    have ht := trimBack_append hs rest
    rw [List.singleton_append] at ht
    rw [ht, List.singleton_append, List.head?_cons, List.head?_cons]

theorem trim_of_solid {cs : List Char} (front : StartsSolid cs) (back : EndsSolid cs) : trim cs = cs := by
  have ht := trimBack_append back []
  rw [List.append_nil] at ht
  rw [trim, trimFront_of_solid front, ht]
  exact List.append_nil cs

/-- What is left of a text has no blanks around it. -/
theorem trim_trim (cs : List Char) : trim (trim cs) = trim cs :=
  trim_of_solid (startsSolid_trim cs) (endsSolid_trimBack (trimFront cs))

theorem toList_trimmed (s : String) : (trimmed s).toList = trim s.toList := by
  simp [trimmed]

/-- **Only blanks are taken away.** -/
theorem exists_trim (cs : List Char) :
    ∃ before after, cs = before ++ trim cs ++ after ∧ Blanks before ∧ Blanks after := by
  refine ⟨cs.takeWhile isBlank, ((trimFront cs).reverse.takeWhile isBlank).reverse, ?_, ?_, ?_⟩
  · have back : trimBack (trimFront cs) ++ ((trimFront cs).reverse.takeWhile isBlank).reverse =
        trimFront cs := by
      rw [trimBack, ← List.reverse_append, List.takeWhile_append_dropWhile, List.reverse_reverse]
    rw [List.append_assoc, trim, back]
    exact List.takeWhile_append_dropWhile.symm
  · exact fun c hc => List.mem_takeWhile_imp hc
  · exact fun c hc => List.mem_takeWhile_imp (List.mem_reverse.mp hc)

/-- **All blanks around a text are taken away.** -/
theorem trim_surrounded {before core after : List Char} (hb : Blanks before) (ha : Blanks after)
    (front : StartsSolid core) (back : EndsSolid core) : trim (before ++ core ++ after) = core := by
  rw [trim, List.append_assoc, trimFront_append_of_blank hb]
  cases core with
  | nil => rw [List.nil_append, trimFront_of_blanks ha]; rfl
  | cons c core =>
    have hs : StartsSolid (c :: core ++ after) := fun d hd => front d hd
    rw [trimFront_of_solid hs, trimBack_append back, trimBack_of_blanks ha, List.append_nil]

/-! ## The first word -/

theorem firstWord_of_word {word : List Char} (hw : ∀ c ∈ word, isBlank c = false) :
    firstWord word = word := by
  rw [firstWord, trimFront_of_solid fun c hc => hw c (List.mem_of_head? hc),
    List.takeWhile_eq_self_iff]
  exact fun c hc => by simp [hw c hc]

/-- **The first word is the same** whatever blanks stand before it and whatever stands behind a blank after it. -/
theorem firstWord_surrounded {before word rest : List Char} (hb : Blanks before)
    (hw : ∀ c ∈ word, isBlank c = false) (hne : word ≠ [])
    (hr : ∀ c, rest.head? = some c → isBlank c = true) :
    firstWord (before ++ word ++ rest) = word := by
  have hs : StartsSolid (word ++ rest) := by
    intro c hc
    rw [List.head?_append_of_ne_nil _ hne] at hc
    exact hw c (List.mem_of_head? hc)
  rw [firstWord, List.append_assoc, trimFront_append_of_blank hb, trimFront_of_solid hs,
    List.takeWhile_append_of_pos (fun c hc => by simp [hw c hc])]
  cases rest with
  | nil => exact List.append_nil _
  | cons c rest => rw [List.takeWhile_cons_of_neg (by simp [hr c rfl]), List.append_nil]

end Converse.Text
