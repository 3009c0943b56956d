import Converse.Toml.Reader
import Converse.Toml.Writer

/-
  Written settings can be read.

  `WritesAs` says which values are written so that they can be read: texts that need no escapes, and truth values. A
  line is read as the entry it was written for, whatever stands on the lines after it (`readLines_line`), so a text
  made of such lines under different keys has just their entries: `read?_lines`.
-/

namespace Converse.Toml

/-- Characters that stand between double quotes as they are. -/
def IsPlain (c : Char) : Prop := c ≠ '"' ∧ c ≠ '\\' ∧ 0x20 ≤ c.toNat ∧ c.toNat ≠ 0x7F

instance : DecidablePred IsPlain := fun _ => inferInstanceAs (Decidable (_ ∧ _))

/-- No quote, no backslash and no control character. -/
def Plain (s : String) : Prop := ∀ c ∈ s.toList, IsPlain c

instance : DecidablePred Plain := fun s => List.decidableBAll _ s.toList

/-! ## Values -/

theorem IsPlain.isPrintable {c : Char} (h : IsPlain c) : isPrintable c = true := by
  simp [Toml.isPrintable, h.2.2]

theorem IsPlain.ne_of_low {c d : Char} (h : IsPlain c) (hd : d.toNat < 0x20) : c ≠ d := by
  rintro rfl
  exact absurd h.2.2.1 (Nat.not_le_of_lt hd)

/-- A plain character needs no escape. -/
theorem writtenChar_of_plain {c : Char} (h : IsPlain c) (long : Bool) : writtenChar long c = [c] := by
  have hn : (c == '\n') = false := beq_eq_false_iff_ne.mpr (h.ne_of_low (by decide))
  have low : ∀ e ∈ letters, e.2 = '\\' ∨ e.2.toNat < 0x20 := by decide
  have hl : letters.find? (·.2 == c) = none := by
    rw [List.find?_eq_none]
    intro e he heq
    have hc : c = e.2 := (beq_iff_eq.mp heq).symm
    rcases low e he with hs | hlow
    · exact h.2.1 (hc.trans hs)
    · exact h.ne_of_low hlow hc
  simp [writtenChar, hn, hl, h.isPrintable]

theorem written_of_plain {cs : List Char} (h : ∀ c ∈ cs, IsPlain c) (long : Bool) (row : Nat) :
    written long row cs = cs := by
  induction cs generalizing row with
  | nil => rfl
  | cons c cs ih =>
    obtain ⟨hc, hcs⟩ := List.forall_mem_cons.mp h
    have hq : (c == '"') = false := beq_eq_false_iff_ne.mpr hc.1
    rw [written, hq, if_neg Bool.false_ne_true, writtenChar_of_plain hc, ih hcs, List.singleton_append]

theorem hasRow_one {mark : Char} {cs : List Char} (h : mark ∉ cs) : hasRow 1 mark cs = false := by
  induction cs with
  | nil => rfl
  | cons c cs ih =>
    obtain ⟨hc, hcs⟩ := not_or.mp (mt List.mem_cons.mpr h)
    have hp : (List.replicate 1 mark).isPrefixOf (c :: cs) = false := by
      simp [List.isPrefixOf, beq_eq_false_iff_ne.mpr hc]
    rw [hasRow, hp, ih hcs, Bool.false_or]

/-- Plain characters stand between double quotes on one line. -/
theorem quoteFor_of_plain {cs : List Char} (h : ∀ c ∈ cs, IsPlain c) : quoteFor cs = ⟨'"', false⟩ := by
  have coded : cs.any isCoded = false := by
    rw [List.any_eq_false]
    intro c hc
    simp [isCoded, (h c hc).isPrintable]
  have marks : hasRow 1 '"' cs = false := hasRow_one fun hm => (h _ hm).1 rfl
  have breaks : cs.contains '\n' = false := by
    simpa using fun hm : '\n' ∈ cs => (h _ hm).ne_of_low (by decide) rfl
  have slashes : cs.contains '\\' = false := by
    simpa using fun hm : '\\' ∈ cs => (h _ hm).2.1 rfl
  have holds : Quote.holds ⟨'"', false⟩ cs = true := by
    simp only [Quote.holds, Quote.width, coded, marks, breaks, slashes, Bool.false_eq_true, if_false]
    rfl
  simp only [quoteFor, List.find?_cons, holds, Option.getD_some]

theorem writtenText_of_plain {s : String} (h : Plain s) : writtenText s = '"' :: (s.toList ++ ['"']) := by
  rw [writtenText, quoteFor_of_plain h, written_of_plain h]
  rfl

/-- Between double quotes, plain characters are read as they stand. -/
theorem read_plain {cs : List Char} (h : ∀ c ∈ cs, IsPlain c) (rest : List Char) :
    Quote.read ⟨'"', false⟩ .plain (cs ++ '"' :: rest) = some (cs, rest) := by
  induction cs with
  | nil => rfl
  | cons c cs ih =>
    obtain ⟨hc, hcs⟩ := List.forall_mem_cons.mp h
    have hm : Quote.move ⟨'"', false⟩ .plain c = .go [c] .plain := by
      simp [Quote.move, Quote.plainMove, hc.1, hc.2.1, hc.isPrintable]
    rw [List.cons_append, Quote.read, hm]
    dsimp only
    rw [ih hcs]
    rfl

/-- A text that ends its line is read, also the empty one. -/
theorem anyString_plain {cs : List Char} (h : ∀ c ∈ cs, IsPlain c) (rest : List Char) :
    anyString '"' (cs ++ '"' :: '\n' :: rest) = some (String.ofList cs, '\n' :: rest) := by
  have short : shortString '"' (cs ++ '"' :: '\n' :: rest) = some (String.ofList cs, '\n' :: rest) := by
    rw [shortString, read_plain h]
    rfl
  rw [← short]
  cases cs with
  | nil => rfl
  | cons c cs =>
    have hc : (c == '"') = false := by simpa using (h c List.mem_cons_self).1
    cases cs <;> simp [anyString, hc]

/-- The text of a value, and the item that is read of it. -/
inductive WritesAs : List Char → Item → Prop
  | text {s : String} (h : Plain s) : WritesAs (writtenText s) (.text s)
  | flag (b : Bool) : WritesAs (writtenFlag b) (.flag b)

theorem readValue_written {w : List Char} {item : Item} (h : WritesAs w item) (fuel room : Nat)
    (rest : List Char) :
    readValue (fuel + 1) room (w ++ '\n' :: rest) = some (item, '\n' :: rest) := by
  cases h with
  | @text s h =>
    have ha := anyString_plain h rest
    rw [writtenText_of_plain h, List.cons_append, List.append_assoc, readValue, List.singleton_append, ha]
    simp
  | flag b => cases b <;> rfl

/-! ## Keys -/

/-- A key that needs no quotes. -/
def IsBare (key : String) : Prop := key.toList ≠ [] ∧ ∀ c ∈ key.toList, isBareChar c = true

instance : DecidablePred IsBare := fun key =>
  have := List.decidableBAll (isBareChar · = true) key.toList
  inferInstanceAs (Decidable (_ ∧ _))

theorem ne_of_bare {c d : Char} (hc : isBareChar c = true) (hd : isBareChar d = false) : c ≠ d := by
  rintro rfl
  rw [hc] at hd
  cases hd

theorem not_isBlank_of_bare {c : Char} (hc : isBareChar c = true) : isBlank c = false := by
  simp [isBlank, ne_of_bare hc (d := ' ') rfl, ne_of_bare hc (d := '\t') rfl]

theorem skipGaps_of_bare {c : Char} (hc : isBareChar c = true) (cs : List Char) :
    skipGaps false (c :: cs) = c :: cs := by
  rw [skipGaps]
  · simp [ne_of_bare hc (d := '#') rfl, not_isBlank_of_bare hc]
  · exact ne_of_bare hc rfl
  · intro _ h
    exact absurd h (ne_of_bare hc rfl)

theorem keyPart_bare {key : String} (h : IsBare key) (rest : List Char) :
    keyPart (skipBlanks (key.toList ++ ' ' :: rest)) = some (key, ' ' :: rest) := by
  obtain ⟨hne, hbare⟩ := h
  have hspace : isBareChar ' ' = false := by decide
  have ht : (key.toList ++ ' ' :: rest).takeWhile isBareChar = key.toList := by
    rw [List.takeWhile_append_of_pos hbare, List.takeWhile_cons_of_neg (by simp [hspace]), List.append_nil]
  have hd : (key.toList ++ ' ' :: rest).dropWhile isBareChar = ' ' :: rest := by
    rw [List.dropWhile_append_of_pos hbare, List.dropWhile_cons_of_neg (by simp [hspace])]
  have hk : key.toList.isEmpty = false := by simpa using hne
  obtain ⟨c, cs, hc⟩ := List.exists_cons_of_ne_nil hne
  have hcb : isBareChar c = true := hbare c (by simp [hc])
  have hs : skipBlanks (key.toList ++ ' ' :: rest) = key.toList ++ ' ' :: rest := by
    rw [hc, skipBlanks, List.cons_append, List.dropWhile_cons_of_neg (by simp [not_isBlank_of_bare hcb])]
  rw [hs]
  unfold keyPart
  split
  · next hq =>
    rw [hc] at hq
    exact absurd (List.cons.inj hq).1 (ne_of_bare hcb (by decide))
  · next hq =>
    rw [hc] at hq
    exact absurd (List.cons.inj hq).1 (ne_of_bare hcb (by decide))
  · dsimp only
    rw [ht, hd, hk, String.ofList_toList]
    rfl

theorem readKey_bare {key : String} (h : IsBare key) (fuel : Nat) (rest : List Char) :
    readKey (fuel + 1) (key.toList ++ ' ' :: '=' :: rest) = some ((key, []), '=' :: rest) := by
  rw [readKey, keyPart_bare h]
  rfl

/-! ## Lines -/

theorem writtenLine_eq (key : String) (w rest : List Char) :
    writtenLine key w ++ rest = key.toList ++ ' ' :: '=' :: ' ' :: (w ++ '\n' :: rest) := by
  simp [writtenLine]

theorem skipBlanks_written {w : List Char} {item : Item} (h : WritesAs w item) (rest : List Char) :
    skipBlanks (' ' :: (w ++ rest)) = w ++ rest := by
  cases h with
  | text h => rw [writtenText_of_plain h]; rfl
  | flag b => cases b <;> rfl

/-- **A line is read as its entry**, and reading goes on behind it. -/
theorem readLines_line {key : String} {w : List Char} {item : Item} {entries : Entries} (bare : IsBare key)
    (value : WritesAs w item) (fresh : entries.lookup key = none) (fuel : Nat) (rest : List Char) :
    readLines (fuel + 2) none entries (writtenLine key w ++ rest) =
      readLines (fuel + 1) none (entries ++ [(key, item)]) rest := by
  obtain ⟨c, cs, hc⟩ := List.exists_cons_of_ne_nil bare.1
  have hcb : isBareChar c = true := bare.2 c (by simp [hc])
  have hopen : c ≠ '[' := ne_of_bare hcb (by decide)
  have hadd : addUnder none entries key [] item = some (entries ++ [(key, item)]) := by
    simp [addUnder, Entries.add, fresh]
  have hgaps : skipGaps false (writtenLine key w ++ rest) = writtenLine key w ++ rest := by
    rw [writtenLine_eq, hc, List.cons_append, skipGaps_of_bare hcb]
  rw [readLines, hgaps]
  rw [writtenLine_eq] at *
  split
  · next h =>
    rw [hc] at h
    cases h
  · next h =>
    rw [hc] at h
    exact absurd (List.cons.inj h).1 hopen
  · next h =>
    rw [hc] at h
    exact absurd (List.cons.inj h).1 hopen
  · simp only [readKey_bare bare, Option.bind_eq_bind, Option.bind_some, expect, BEq.rfl, if_true,
      skipBlanks_written value, readValue_written value, hadd, endLine]
    rfl

/-- A setting on its line: its key, the text of its value, and the item that is read of it. -/
structure Line where
  key : String
  value : List Char
  item : Item

namespace Line

def written (l : Line) : List Char := writtenLine l.key l.value

def entry (l : Line) : String × Item := (l.key, l.item)

structure Sound (l : Line) : Prop where
  bare : IsBare l.key
  value : WritesAs l.value l.item

end Line

variable {lines : List Line}

/-- Lines under different keys are read as their entries, behind those that are there. -/
theorem readLines_lines (sound : ∀ l ∈ lines, l.Sound) (distinct : (lines.map (·.key)).Nodup)
    {entries : Entries} (fresh : ∀ l ∈ lines, entries.lookup l.key = none) {fuel : Nat}
    (enough : lines.length < fuel) :
    readLines fuel none entries (lines.flatMap Line.written) = some (entries ++ lines.map Line.entry) := by
  induction lines generalizing entries fuel with
  | nil =>
    obtain ⟨fuel, rfl⟩ := Nat.exists_eq_succ_of_ne_zero (Nat.ne_zero_of_lt enough)
    rw [List.flatMap_nil, List.map_nil, List.append_nil]
    rfl
  | cons l lines ih =>
    obtain ⟨fuel, rfl⟩ : ∃ n, fuel = n + 2 := ⟨fuel - 2, by rw [List.length_cons] at enough; omega⟩
    obtain ⟨hl, hlines⟩ := List.forall_mem_cons.mp sound
    obtain ⟨hfresh, hfreshes⟩ := List.forall_mem_cons.mp fresh
    obtain ⟨hnew, hdistinct⟩ := List.nodup_cons.mp distinct
    have hne : ∀ m ∈ lines, (m.key == l.key) = false := by
      intro m hm
      rw [beq_eq_false_iff_ne]
      exact fun he => hnew (List.mem_map.mpr ⟨m, hm, he⟩)
    rw [List.flatMap_cons, Line.written, readLines_line hl.bare hl.value hfresh,
      ih hlines hdistinct _ (Nat.lt_of_succ_lt_succ enough), List.map_cons, List.append_assoc]
    · rfl
    · intro m hm
      rw [List.lookup_append, hfreshes m hm, Option.none_or, List.lookup_cons, hne m hm]
      rfl

theorem length_le_written (lines : List Line) : lines.length ≤ (lines.flatMap Line.written).length := by
  induction lines with
  | nil => exact Nat.le_refl _
  | cons l lines ih =>
    have hw : 0 < l.written.length := List.length_pos_iff.mpr (by simp [Line.written, writtenLine])
    rw [List.flatMap_cons, List.length_append, List.length_cons]
    omega

/-- A written text does not open with a mark of byte order. -/
theorem dropOrderMark_written (sound : ∀ l ∈ lines, l.Sound) :
    dropOrderMark (lines.flatMap Line.written) = lines.flatMap Line.written := by
  cases lines with
  | nil => rfl
  | cons l lines =>
    obtain ⟨hne, hbare⟩ := (sound l List.mem_cons_self).bare
    obtain ⟨c, cs, hc⟩ := List.exists_cons_of_ne_nil hne
    have hcb : c ≠ '\uFEFF' := ne_of_bare (hbare c (by simp [hc])) (by decide)
    rw [List.flatMap_cons, Line.written, writtenLine_eq, hc]
    unfold dropOrderMark
    split
    · next h => exact absurd (List.cons.inj h).1 hcb
    · rfl

/-- **A text of written lines has just their entries**, in their order. -/
theorem read?_lines (sound : ∀ l ∈ lines, l.Sound) (distinct : (lines.map (·.key)).Nodup) :
    read? (String.ofList (lines.flatMap Line.written)) = some (lines.map Line.entry) := by
  have hl := length_le_written lines
  rw [read?, String.toList_ofList, dropOrderMark_written sound,
    readLines_lines sound distinct (fun _ _ => rfl) (by omega), List.nil_append]

end Converse.Toml
