import Converse.Proofs.Text.Encoding
import Mathlib.Tactic.SplitIfs

/-
  Bytes that are text.

  The reader holds the front of a character, and one more byte makes it whole, makes it longer or shows that it
  belongs to none (`advance_begun`). What is made whole has just the bytes that were held
  (`encodeChar_two` and its like), so bytes cut into characters alone are the bytes of these.
  `read_eq_ok_iff` is the result: bytes are read exactly if they are those of a text.
-/

namespace Converse.Text.Utf8

/-! ## The bytes of one character -/

/-- The bytes that may come second, by the first one. -/
theorem mayFollow_bounds {a b : UInt8} (h : mayFollow a b = true) :
    (0x80 ≤ b.toNat ∧ b.toNat ≤ 0xBF) ∧ (a.toNat = 0xE0 → 0xA0 ≤ b.toNat) ∧
      (a.toNat = 0xED → b.toNat ≤ 0x9F) ∧ (a.toNat = 0xF0 → 0x90 ≤ b.toNat) ∧
      (a.toNat = 0xF4 → b.toNat ≤ 0x8F) := by
  simp only [mayFollow, isTail, beq_iff_eq, ← UInt8.toNat_inj, UInt8.le_iff_toNat_le,
    UInt8.reduceToNat] at h
  split_ifs at h <;> simp only [Bool.and_eq_true, decide_eq_true_iff] at h <;> omega

theorem ofNat_eq {n : Nat} {b : UInt8} (h : n = b.toNat) : UInt8.ofNat n = b := by
  rw [h, UInt8.ofNat_toNat]

/-- The bytes of the character with the number. -/
theorem encodeChar_ofNat {n : Nat} (h : n.isValidChar) : String.utf8EncodeChar (Char.ofNat n) =
    if n ≤ 0x7F then [UInt8.ofNat n]
    else if n ≤ 0x7FF then [UInt8.ofNat (n / 64 % 32 + 0xC0), UInt8.ofNat (n % 64 + 0x80)]
    else if n ≤ 0xFFFF then
      [UInt8.ofNat (n / 4096 % 16 + 0xE0), UInt8.ofNat (n / 64 % 64 + 0x80), UInt8.ofNat (n % 64 + 0x80)]
    else [UInt8.ofNat (n / 262144 % 8 + 0xF0), UInt8.ofNat (n / 4096 % 64 + 0x80),
      UInt8.ofNat (n / 64 % 64 + 0x80), UInt8.ofNat (n % 64 + 0x80)] := by
  unfold String.utf8EncodeChar
  rw [Char.toNat_val, toNat_ofNat_of_valid h]

theorem encodeChar_two {a b : UInt8} (low : 0xC2 ≤ a.toNat) (high : a.toNat ≤ 0xDF)
    (hb : mayFollow a b = true) : String.utf8EncodeChar (assemble a [b]) = [a, b] := by
  obtain ⟨tail, -⟩ := mayFollow_bounds hb
  have hw : width a = 2 := by rw [width_eq, if_pos high]
  have hv : (a.toNat % 32 * 64 + b.toNat % 64).isValidChar := .inl (by omega)
  have hm : assemble a [b] = Char.ofNat (a.toNat % 32 * 64 + b.toNat % 64) := by rw [assemble, hw]; rfl
  rw [hm, encodeChar_ofNat hv, if_neg (by omega), if_pos (by omega), ofNat_eq (b := a) (by omega),
    ofNat_eq (b := b) (by omega)]

theorem encodeChar_three {a b c : UInt8} (low : 0xE0 ≤ a.toNat) (high : a.toNat ≤ 0xEF)
    (hb : mayFollow a b = true) (hc : isTail c = true) :
    String.utf8EncodeChar (assemble a [b, c]) = [a, b, c] := by
  obtain ⟨tail, e0, ed, -⟩ := mayFollow_bounds hb
  have last := (isTail_iff c).mp hc
  have hw : width a = 3 := by rw [width_eq, if_neg (by omega), if_pos high]
  have hv : ((a.toNat % 16 * 64 + b.toNat % 64) * 64 + c.toNat % 64).isValidChar := by
    unfold Nat.isValidChar
    omega
  have hm : assemble a [b, c] = Char.ofNat ((a.toNat % 16 * 64 + b.toNat % 64) * 64 + c.toNat % 64) := by
    rw [assemble, hw]; rfl
  rw [hm, encodeChar_ofNat hv, if_neg (by omega), if_neg (by omega), if_pos (by omega),
    ofNat_eq (b := a) (by omega), ofNat_eq (b := b) (by omega), ofNat_eq (b := c) (by omega)]

theorem encodeChar_four {a b c d : UInt8} (low : 0xF0 ≤ a.toNat) (high : a.toNat ≤ 0xF4)
    (hb : mayFollow a b = true) (hc : isTail c = true) (hd : isTail d = true) :
    String.utf8EncodeChar (assemble a [b, c, d]) = [a, b, c, d] := by
  obtain ⟨tail, -, -, f0, f4⟩ := mayFollow_bounds hb
  have third := (isTail_iff c).mp hc
  have last := (isTail_iff d).mp hd
  have hw : width a = 4 := by rw [width_eq, if_neg (by omega), if_neg (by omega)]
  have hv : (((a.toNat % 8 * 64 + b.toNat % 64) * 64 + c.toNat % 64) * 64 + d.toNat % 64).isValidChar := by
    unfold Nat.isValidChar
    omega
  have hm : assemble a [b, c, d] =
      Char.ofNat (((a.toNat % 8 * 64 + b.toNat % 64) * 64 + c.toNat % 64) * 64 + d.toNat % 64) := by
    rw [assemble, hw]; rfl
  rw [hm, encodeChar_ofNat hv, if_neg (by omega), if_neg (by omega), if_neg (by omega),
    ofNat_eq (b := a) (by omega), ofNat_eq (b := b) (by omega), ofNat_eq (b := c) (by omega),
    ofNat_eq (b := d) (by omega)]

/-! ## The front of a character -/

/-- The bytes are the front of a character that may go on after them. -/
inductive Begun : List UInt8 → Prop
  | none : Begun []
  | one {a : UInt8} (low : 0xC2 ≤ a.toNat) (high : a.toNat ≤ 0xF4) : Begun [a]
  | two {a b : UInt8} (low : 0xE0 ≤ a.toNat) (high : a.toNat ≤ 0xF4) (hb : mayFollow a b = true) : Begun [a, b]
  | three {a b c : UInt8} (low : 0xF0 ≤ a.toNat) (high : a.toNat ≤ 0xF4) (hb : mayFollow a b = true)
    (hc : isTail c = true) : Begun [a, b, c]

/-- What one more byte makes of the front of a character: the whole, a longer front, or a stretch that belongs to
  no character. -/
theorem advance_begun {pending : List UInt8} (h : Begun pending) (b : UInt8) :
    (∃ c, advance pending b = ([.char c], []) ∧ pending ++ [b] = String.utf8EncodeChar c) ∨
      (advance pending b = ([], pending ++ [b]) ∧ Begun (pending ++ [b])) ∨
      ∃ n rest, (advance pending b).1 = .stray n :: rest := by
  cases h with
  | none =>
    by_cases low : b < 0x80
    · have hl : b.toNat < 0x80 := UInt8.lt_iff_toNat_lt.mp low
      refine .inl ⟨Char.ofNat b.toNat, by simp [advance, start, low], ?_⟩
      rw [encodeChar_ofNat (.inl (by omega)), if_pos (by omega), ofNat_eq rfl]
      rfl
    · by_cases lead : (0xC2 ≤ b && b ≤ 0xF4) = true
      · have hl : 0xC2 ≤ b.toNat ∧ b.toNat ≤ 0xF4 := by
          simpa [UInt8.le_iff_toNat_le] using lead
        exact .inr (.inl ⟨start_lead hl.1 hl.2, .one hl.1 hl.2⟩)
      · exact .inr (.inr ⟨1, [], by simp [advance, start, low, lead]⟩)
  | @one a low high =>
    by_cases hb : mayFollow a b = true
    · by_cases hw : a.toNat ≤ 0xDF
      · have hwidth : width a = 2 := by rw [width_eq, if_pos hw]
        refine .inl ⟨assemble a [b], by simp [advance, hb, hwidth], (encodeChar_two low hw hb).symm⟩
      · have hwidth : width a ≠ 2 := by
          rw [width_eq, if_neg hw]
          split <;> decide
        exact .inr (.inl ⟨by simp [advance, hb, hwidth.symm], .two (by omega) high hb⟩)
    · exact .inr (.inr ⟨1, (start b).1, by simp [advance, hb]⟩)
  | @two a b' low high hb' =>
    by_cases hb : isTail b = true
    · by_cases hw : a.toNat ≤ 0xEF
      · have hwidth : width a = 3 := by rw [width_eq, if_neg (by omega), if_pos hw]
        refine .inl ⟨assemble a [b', b], by simp [advance, hb, hwidth], (encodeChar_three low hw hb' hb).symm⟩
      · have hwidth : width a = 4 := by rw [width_eq, if_neg (by omega), if_neg hw]
        exact .inr (.inl ⟨by simp [advance, hb, hwidth], .three (by omega) high hb' hb⟩)
    · exact .inr (.inr ⟨2, (start b).1, by simp [advance, hb]⟩)
  | @three a b' c low high hb' hc =>
    by_cases hb : isTail b = true
    · have hwidth : width a = 4 := by rw [width_eq, if_neg (by omega), if_neg (by omega)]
      refine .inl ⟨assemble a [b', c, b], by simp [advance, hb, hwidth], (encodeChar_four low high hb' hc hb).symm⟩
    · exact .inr (.inr ⟨3, (start b).1, by simp [advance, hb]⟩)

/-! ## Whole texts -/

/-- Bytes that are cut into characters alone are the bytes of these. -/
theorem eq_flatMap_of_piecesAfter {pending bytes : List UInt8} (h : Begun pending) {cs : List Char}
    (hp : piecesAfter pending bytes = cs.map .char) : pending ++ bytes = cs.flatMap String.utf8EncodeChar := by
  induction bytes generalizing pending cs with
  | nil =>
    rw [piecesAfter] at hp
    cases pending with
    | nil =>
      have hn : cs = [] := by simpa using hp
      subst hn
      rfl
    | cons a tail => cases cs <;> simp at hp
  | cons b bytes ih =>
    rw [piecesAfter] at hp
    rw [List.append_cons]
    rcases advance_begun h b with ⟨c, ha, hc⟩ | ⟨ha, hn⟩ | ⟨n, rest, ha⟩
    · rw [hc]
      rw [ha] at hp
      cases cs with
      | nil => simp at hp
      | cons d cs =>
        obtain ⟨rfl, hr⟩ : c = d ∧ piecesAfter [] bytes = cs.map .char := by simpa using hp
        rw [List.flatMap_cons, ← ih .none hr, List.nil_append]
    · rw [ha] at hp
      exact ih hn hp
    · rw [ha] at hp
      cases cs <;> simp at hp

theorem readFrom_map_char (offset : Nat) (cs : List Char) : readFrom offset (cs.map .char) = (cs, none) := by
  induction cs generalizing offset with
  | nil => rfl
  | cons c cs ih => rw [List.map_cons, readFrom, ih]

theorem eq_map_char_of_readFrom {offset : Nat} {ps : List Piece} {cs : List Char}
    (h : readFrom offset ps = (cs, none)) : ps = cs.map .char := by
  induction ps generalizing offset cs with
  | nil =>
    cases h
    rfl
  | cons p ps ih =>
    cases p with
    | char c =>
      rw [readFrom] at h
      cases hr : readFrom (offset + c.utf8Size) ps with
      | mk rest fault =>
        rw [hr] at h
        cases h
        rw [List.map_cons, ih hr]
    | _ => cases h

/-- **Bytes are read just if they are those of a text**, and then that text is read. -/
theorem read_eq_ok_iff {bytes : List UInt8} {s : String} : read bytes = .ok s ↔ bytes = encode s := by
  unfold read readFront
  constructor
  · intro h
    cases hr : readFrom 0 (pieces bytes) with
    | mk cs fault =>
      rw [hr] at h
      cases fault with
      | some e => cases h
      | none =>
        cases h
        rw [encode_ofList, ← eq_flatMap_of_piecesAfter .none (eq_map_char_of_readFrom hr), List.nil_append]
  · rintro rfl
    rw [pieces_encode, readFrom_map_char]
    exact congrArg Except.ok String.ofList_toList

end Converse.Text.Utf8
