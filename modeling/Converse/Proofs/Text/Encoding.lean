import Converse.Text.Utf8

/-
  Text whose bytes are cut off.

  The reader of bytes is a machine that holds the bytes of an unfinished character. `after` is what it has read
  and what it holds, so two stretches of bytes can be read one after the other (`piecesAfter_append`). The
  bytes of a character make that character and leave nothing, and fewer of them are all held (`Whole`,
  `whole_char`). `readLoosely_take` is the result: what is read of the first bytes of a text.
-/

namespace Converse.Text.Utf8

/-! ## Reading in two stretches -/

/-- The pieces that are complete after more bytes, and the bytes of an unfinished character. -/
def after (pending : List UInt8) : List UInt8 → List Piece × List UInt8
  | [] => ([], pending)
  | b :: rest =>
    let next := advance pending b
    let r := after next.2 rest
    (next.1 ++ r.1, r.2)

theorem piecesAfter_append (pending xs ys : List UInt8) :
    piecesAfter pending (xs ++ ys) = (after pending xs).1 ++ piecesAfter (after pending xs).2 ys := by
  induction xs generalizing pending with
  | nil => rfl
  | cons b xs ih =>
    rw [List.cons_append, piecesAfter, ih, ← List.append_assoc]
    rfl

/-- What is read of the first bytes is the beginning of what is read of all, but for U+FFFD in place of a
  character that is not finished there. -/
theorem readLoosely_front (xs ys : List UInt8) :
    ∃ text rest, (readLoosely (xs ++ ys)).toList = text ++ rest ∧
      ((readLoosely xs).toList = text ∨ (readLoosely xs).toList = text ++ ['\uFFFD']) := by
  have hx := piecesAfter_append [] xs []
  rw [List.append_nil, piecesAfter] at hx
  refine ⟨(after [] xs).1.map Piece.loose, (piecesAfter (after [] xs).2 ys).map Piece.loose, ?_, ?_⟩
  · rw [readLoosely, pieces, piecesAfter_append, String.toList_ofList, List.map_append]
  · rw [readLoosely, pieces, hx, String.toList_ofList, List.map_append]
    split
    · exact .inl (List.append_nil _)
    · exact .inr rfl

/-! ## The bytes of a character -/

theorem start_lead {a : UInt8} (low : 0xC2 ≤ a.toNat) (high : a.toNat ≤ 0xF4) : start a = ([], [a]) := by
  have hn : ¬ a < 0x80 := by
    rw [UInt8.lt_iff_toNat_lt, Nat.not_lt]
    exact Nat.le_trans (by decide) low
  have hl : (0xC2 ≤ a && a ≤ 0xF4) = true := by
    simpa [UInt8.le_iff_toNat_le] using ⟨low, high⟩
  rw [start, if_neg hn, if_pos hl]

theorem isTail_iff (b : UInt8) : isTail b = true ↔ 0x80 ≤ b.toNat ∧ b.toNat ≤ 0xBF := by
  simp [isTail, UInt8.le_iff_toNat_le]

/-- After four first bytes less may come second than after the others. -/
theorem mayFollow_of {a b : UInt8} (tail : 0x80 ≤ b.toNat ∧ b.toNat ≤ 0xBF)
    (e0 : a.toNat = 0xE0 → 0xA0 ≤ b.toNat) (ed : a.toNat = 0xED → b.toNat ≤ 0x9F)
    (f0 : a.toNat = 0xF0 → 0x90 ≤ b.toNat) (f4 : a.toNat = 0xF4 → b.toNat ≤ 0x8F) :
    mayFollow a b = true := by
  simp only [mayFollow, isTail, beq_iff_eq, ← UInt8.toNat_inj, UInt8.le_iff_toNat_le]
  split
  · next h => simpa using ⟨e0 h, tail.2⟩
  · split
    · next h => simpa using ⟨tail.1, ed h⟩
    · split
      · next h => simpa using ⟨f0 h, tail.2⟩
      · split
        · next h => simpa using ⟨tail.1, f4 h⟩
        · simpa using tail

/-- The bytes are those of one character: each prefix of them is held, and all of them make it. -/
structure Whole (bytes : List UInt8) (c : Char) : Prop where
  made : after [] bytes = ([.char c], [])
  held : ∀ k < bytes.length, after [] (bytes.take k) = ([], bytes.take k)

theorem width_eq (a : UInt8) :
    width a = if a.toNat ≤ 0xDF then 2 else if a.toNat ≤ 0xEF then 3 else 4 := by
  simp [width, UInt8.le_iff_toNat_le]

theorem whole_two {a b : UInt8} {c : Char} (low : 0xC2 ≤ a.toNat) (high : a.toNat ≤ 0xDF)
    (hb : mayFollow a b = true) (hc : a.toNat % 32 * 64 + b.toNat % 64 = c.toNat) : Whole [a, b] c := by
  have ha : start a = ([], [a]) := start_lead low (by omega)
  have hw : width a = 2 := by rw [width_eq, if_pos high]
  refine ⟨?_, fun k hk => ?_⟩
  · simp [after, advance, ha, hb, hw, assemble, hc, Char.ofNat_toNat]
  · obtain rfl | rfl : k = 0 ∨ k = 1 := by simp at hk; omega
    · rfl
    · simp [after, advance, ha]

theorem whole_three {a b b' : UInt8} {c : Char} (low : 0xE0 ≤ a.toNat) (high : a.toNat ≤ 0xEF)
    (hb : mayFollow a b = true) (hb' : isTail b' = true)
    (hc : (a.toNat % 16 * 64 + b.toNat % 64) * 64 + b'.toNat % 64 = c.toNat) : Whole [a, b, b'] c := by
  have ha : start a = ([], [a]) := start_lead (by omega) (by omega)
  have hw : width a = 3 := by rw [width_eq, if_neg (by omega), if_pos high]
  refine ⟨?_, fun k hk => ?_⟩
  · simp [after, advance, ha, hb, hb', hw, assemble, hc, Char.ofNat_toNat]
  · obtain rfl | rfl | rfl : k = 0 ∨ k = 1 ∨ k = 2 := by simp at hk; omega
    · rfl
    · simp [after, advance, ha]
    · simp [after, advance, ha, hb, hw]

theorem whole_four {a b b' b'' : UInt8} {c : Char} (low : 0xF0 ≤ a.toNat) (high : a.toNat ≤ 0xF4)
    (hb : mayFollow a b = true) (hb' : isTail b' = true) (hb'' : isTail b'' = true)
    (hc : ((a.toNat % 8 * 64 + b.toNat % 64) * 64 + b'.toNat % 64) * 64 + b''.toNat % 64 = c.toNat) :
    Whole [a, b, b', b''] c := by
  have ha : start a = ([], [a]) := start_lead (by omega) high
  have hw : width a = 4 := by rw [width_eq, if_neg (by omega), if_neg (by omega)]
  refine ⟨?_, fun k hk => ?_⟩
  · simp [after, advance, ha, hb, hb', hb'', hw, assemble, hc, Char.ofNat_toNat]
  · obtain rfl | rfl | rfl | rfl : k = 0 ∨ k = 1 ∨ k = 2 ∨ k = 3 := by simp at hk; omega
    · rfl
    · simp [after, advance, ha]
    · simp [after, advance, ha, hb, hw]
    · simp [after, advance, ha, hb, hb', hw]

/-- A byte with its value. -/
theorem exists_byte {n : Nat} (h : n < 256) : ∃ b : UInt8, UInt8.ofNat n = b ∧ b.toNat = n :=
  ⟨_, rfl, UInt8.toNat_ofNat_of_lt' h⟩

/-- **The bytes of a character are read as that character.** -/
theorem whole_char (c : Char) : Whole (String.utf8EncodeChar c) c := by
  -- surrogates are no characters, and there are none past U+10FFFF
  have hv : c.toNat < 0xD800 ∨ (0xDFFF < c.toNat ∧ c.toNat < 0x110000) := c.valid
  unfold String.utf8EncodeChar
  rw [Char.toNat_val]
  dsimp only
  split
  · obtain ⟨a, rfl, ha⟩ := exists_byte (n := c.toNat) (by omega)
    have hl : UInt8.ofNat c.toNat < 0x80 := by
      rw [UInt8.lt_iff_toNat_lt, ha]
      exact Nat.lt_succ_of_le ‹_›
    have hs : start (UInt8.ofNat c.toNat) = ([.char c], []) := by
      rw [start, if_pos hl, ha, Char.ofNat_toNat]
    exact ⟨by simp [after, advance, hs], fun k hk => by simp_all [after]⟩
  split
  · obtain ⟨a, ea, ha⟩ := exists_byte (n := c.toNat / 64 % 32 + 192) (by omega)
    obtain ⟨b, eb, hb⟩ := exists_byte (n := c.toNat % 64 + 128) (by omega)
    rw [ea, eb]
    refine whole_two (by omega) (by omega) (mayFollow_of ?_ ?_ ?_ ?_ ?_) ?_ <;> omega
  split
  · obtain ⟨a, ea, ha⟩ := exists_byte (n := c.toNat / 4096 % 16 + 224) (by omega)
    obtain ⟨b, eb, hb⟩ := exists_byte (n := c.toNat / 64 % 64 + 128) (by omega)
    obtain ⟨b', eb', hb'⟩ := exists_byte (n := c.toNat % 64 + 128) (by omega)
    rw [ea, eb, eb']
    refine whole_three (by omega) (by omega) (mayFollow_of ?_ ?_ ?_ ?_ ?_) ((isTail_iff b').mpr ?_) ?_
      <;> omega
  · obtain ⟨a, ea, ha⟩ := exists_byte (n := c.toNat / 262144 % 8 + 240) (by omega)
    obtain ⟨b, eb, hb⟩ := exists_byte (n := c.toNat / 4096 % 64 + 128) (by omega)
    obtain ⟨b', eb', hb'⟩ := exists_byte (n := c.toNat / 64 % 64 + 128) (by omega)
    obtain ⟨b'', eb'', hb''⟩ := exists_byte (n := c.toNat % 64 + 128) (by omega)
    rw [ea, eb, eb', eb'']
    refine whole_four (by omega) (by omega) (mayFollow_of ?_ ?_ ?_ ?_ ?_) ((isTail_iff b').mpr ?_)
      ((isTail_iff b'').mpr ?_) ?_ <;> omega

/-! ## The bytes of a text -/

theorem toList_loop (bytes : ByteArray) (i : Nat) (sofar : List UInt8) :
    ByteArray.toList.loop bytes i sofar = sofar.reverse ++ bytes.data.toList.drop i := by
  fun_induction ByteArray.toList.loop bytes i sofar with
  | case1 i sofar h ih =>
    have hi : i < bytes.data.toList.length := h
    have hg : bytes.get! i = bytes.data.toList[i] := getElem!_pos bytes.data i h
    rw [ih, List.drop_eq_getElem_cons hi, List.reverse_cons, List.append_assoc, hg]
    rfl
  | case2 i sofar h =>
    have hi : bytes.data.toList.length ≤ i := Nat.le_of_not_lt h
    rw [List.drop_eq_nil_of_le hi, List.append_nil]

theorem toList_eq (bytes : ByteArray) : bytes.toList = bytes.data.toList := toList_loop bytes 0 []

theorem length_encode (s : String) : (encode s).length = s.utf8ByteSize := by
  rw [encode, toList_eq]
  rfl

theorem encode_ofList (cs : List Char) :
    encode (String.ofList cs) = cs.flatMap String.utf8EncodeChar := by
  change (String.ofList cs).toByteArray.toList = _
  rw [String.toByteArray_ofList, toList_eq]
  simp [List.utf8Encode]

theorem toNat_ofNat_of_valid {n : Nat} (h : n.isValidChar) : (Char.ofNat n).toNat = n := by
  rw [Char.ofNat, dif_pos h]
  rfl

/-- Each character of ASCII is one byte. -/
theorem encode_ascii {cs : List Char} (h : ∀ c ∈ cs, c.toNat < 0x80) :
    encode (String.ofList cs) = cs.map fun c => UInt8.ofNat c.toNat := by
  rw [encode_ofList]
  induction cs with
  | nil => rfl
  | cons c cs ih =>
    obtain ⟨hc, hcs⟩ := List.forall_mem_cons.mp h
    have hs : c.utf8Size = 1 := Char.utf8Size_eq_one_iff.mpr (UInt32.le_iff_toNat_le.mpr (Nat.le_of_lt_succ hc))
    rw [List.flatMap_cons, String.utf8EncodeChar_eq_singleton hs, ih hcs]
    rfl

theorem pieces_encode (s : String) : pieces (encode s) = s.toList.map .char := by
  obtain ⟨cs, rfl⟩ : ∃ cs, s = String.ofList cs := ⟨s.toList, String.ofList_toList.symm⟩
  rw [encode_ofList, String.toList_ofList]
  induction cs with
  | nil => rfl
  | cons c cs ih =>
    rw [List.flatMap_cons, pieces, piecesAfter_append, (whole_char c).made]
    exact congrArg _ ih

/-- **Text survives its bytes.** -/
theorem readLoosely_encode (s : String) : readLoosely (encode s) = s := by
  have hl : (s.toList.map Piece.char).map Piece.loose = s.toList := by
    rw [List.map_map]
    exact List.map_id s.toList
  rw [readLoosely, pieces_encode, hl, String.ofList_toList]

/-- Text that is cut off after some bytes: the characters that end before, and U+FFFD for one that the cut goes
  through. -/
def cutOff : Nat → List Char → List Char
  | _, [] => []
  | n, c :: cs =>
    if c.utf8Size ≤ n then c :: cutOff (n - c.utf8Size) cs
    else if n = 0 then []
    else ['\uFFFD']

/-- **What is read of the first bytes of a text** is that text cut off. -/
theorem readLoosely_take (n : Nat) (s : String) :
    readLoosely ((encode s).take n) = String.ofList (cutOff n s.toList) := by
  obtain ⟨cs, rfl⟩ : ∃ cs, s = String.ofList cs := ⟨s.toList, String.ofList_toList.symm⟩
  rw [encode_ofList, String.toList_ofList, readLoosely]
  refine congrArg String.ofList ?_
  induction cs generalizing n with
  | nil => simp [pieces, piecesAfter, cutOff]
  | cons c cs ih =>
    have hw := whole_char c
    have hl := String.length_utf8EncodeChar c
    rw [List.flatMap_cons, cutOff, pieces]
    split
    · next h =>
      rw [List.take_append, List.take_of_length_le (hl ▸ h), piecesAfter_append, hw.made,
        List.map_append, hl]
      exact congrArg _ (ih _)
    · next h =>
      have hlt : n < (String.utf8EncodeChar c).length := hl ▸ Nat.lt_of_not_le h
      rw [List.take_append_of_le_length (Nat.le_of_lt hlt)]
      have hp := piecesAfter_append [] ((String.utf8EncodeChar c).take n) []
      rw [List.append_nil, hw.held n hlt] at hp
      rw [hp, piecesAfter]
      by_cases hz : n = 0
      · simp [hz]
      · have hne : ((String.utf8EncodeChar c).take n).isEmpty = false := by
          rw [List.isEmpty_eq_false_iff, Ne, List.take_eq_nil_iff, not_or]
          exact ⟨hz, List.ne_nil_of_length_pos (by omega)⟩
        rw [hne, if_neg hz]
        rfl

/-- The cut goes through the two bytes of the second character. -/
example : cutOff 2 ['a', 'é', 'b'] = ['a', '\uFFFD'] := by decide

end Converse.Text.Utf8
