import Converse.Link.Quota
import Converse.Proofs.Number.Decimal
import Converse.Proofs.Text.Encoding
import Converse.Proofs.Text.Trimming

/-
  What the headers of a response grant.

  `Header.Leads` says which value is the first of a name, and `Says` which values say a number: its numeral in
  bytes, with tabs and spaces around it. A field of the quota is there exactly if the first value of its name says
  a number within its bounds (`wordField_eq_some_iff`, `longField_eq_some_iff`). `quota_of_headers` is the
  result, with the way back: a quota that is written into headers is read from them.
-/

namespace Converse

open Text.Utf8 (encode)

namespace Http.Header

/-! ## The first header of a name -/

/-- The header has the name, in whatever letter case. -/
def Named (name : String) (h : Header) : Prop := lowerName h.name = lowerName name

instance (name : String) : DecidablePred (Named name) := fun _ => inferInstanceAs (Decidable (_ = _))

/-- The first header of the name has the value. -/
def Leads (headers : List Header) (name : String) (value : List UInt8) : Prop :=
  ∃ front h rest, headers = front ++ h :: rest ∧ (∀ g ∈ front, ¬ g.Named name) ∧ h.Named name ∧
    h.value = value

variable {headers : List Header} {name : String} {value : List UInt8}

theorem first?_eq_some_iff : first? headers name = some value ↔ Leads headers name value := by
  simp only [first?, Option.map_eq_some_iff, List.find?_eq_some_iff_append, beq_iff_eq,
    Bool.not_eq_true', beq_eq_false_iff_ne]
  constructor
  · rintro ⟨h, ⟨hn, front, rest, rfl, hf⟩, rfl⟩
    exact ⟨front, h, rest, rfl, hf, hn, rfl⟩
  · rintro ⟨front, h, rest, rfl, hf, hn, rfl⟩
    exact ⟨h, ⟨hn, front, rest, rfl, hf⟩, rfl⟩

theorem first?_eq_none (absent : ∀ h ∈ headers, ¬ h.Named name) : first? headers name = none := by
  simp only [first?, Option.map_eq_none_iff, List.find?_eq_none, beq_iff_eq]
  exact absent

/-- A header of another name, or one that comes later, does not matter. -/
theorem first?_remove {front rest : List Header} {h : Header}
    (idle : h.Named name → ∃ g ∈ front, g.Named name) :
    first? (front ++ h :: rest) name = first? (front ++ rest) name := by
  unfold first?
  rw [List.find?_append, List.find?_append]
  by_cases hn : h.Named name
  · obtain ⟨g, hg, hgn⟩ := idle hn
    have hs : (front.find? fun k => lowerName k.name == lowerName name).isSome = true :=
      List.find?_isSome.mpr ⟨g, hg, beq_iff_eq.mpr hgn⟩
    obtain ⟨k, hk⟩ := Option.isSome_iff_exists.mp hs
    rw [hk, Option.some_or, Option.some_or]
  · rw [List.find?_cons_of_neg (by rw [beq_iff_eq]; exact hn)]

/-! ## Values that are text -/

/-- Tabs and spaces. -/
def Padding (bytes : List UInt8) : Prop := ∀ b ∈ bytes, b = 0x09 ∨ b = 0x20

instance : DecidablePred Padding := fun bytes => List.decidableBAll _ bytes

/-- The character of a byte. -/
def charOf (b : UInt8) : Char := Char.ofNat b.toNat

theorem isTextByte_iff (b : UInt8) :
    isTextByte b = true ↔ b.toNat = 0x09 ∨ (0x20 ≤ b.toNat ∧ b.toNat ≤ 0x7E) := by
  simp [isTextByte, ← UInt8.toNat_inj, UInt8.le_iff_toNat_le]

theorem textOf_eq_some_iff {text : List Char} :
    textOf value = some text ↔ (∀ b ∈ value, isTextByte b = true) ∧ text = value.map charOf := by
  have ht : value.all isTextByte = true ↔ ∀ b ∈ value, isTextByte b = true := List.all_eq_true
  unfold textOf
  by_cases h : value.all isTextByte = true
  · rw [if_pos h, Option.some.injEq, ← ht]
    exact ⟨fun e => ⟨h, e.symm⟩, fun e => e.2.symm⟩
  · rw [if_neg h, ← ht]
    exact iff_of_false (nomatch ·) fun e => h e.1

theorem toNat_charOf {b : UInt8} (h : isTextByte b = true) : (charOf b).toNat = b.toNat := by
  have hb := (isTextByte_iff b).mp h
  exact Text.Utf8.toNat_ofNat_of_valid (.inl (by omega))

/-- Of the characters that a text may hold, only tab and space are blank. -/
theorem isBlank_charOf {b : UInt8} (h : isTextByte b = true) :
    Text.isBlank (charOf b) = true ↔ b = 0x09 ∨ b = 0x20 := by
  have hb := (isTextByte_iff b).mp h
  simp only [Text.isBlank, toNat_charOf h, Bool.or_eq_true, Bool.and_eq_true, decide_eq_true_iff, beq_iff_eq,
    ← UInt8.toNat_inj, UInt8.reduceToNat]
  omega

end Http.Header

namespace Quota

open Http Http.Header

/-! ## Values that say a number -/

/-- The bytes are those of a numeral of the number, with tabs and spaces around it. -/
def Says (negative : Bool) (value : List UInt8) (n : Int) : Prop :=
  ∃ before numeral after, value = before ++ encode numeral ++ after ∧ Padding before ∧ Padding after ∧
    Numeral.Spells negative numeral.toList n

variable {negative : Bool} {value : List UInt8} {n : Int}

/-- Numerals are visible ASCII. -/
theorem visible_of_spells {cs : List Char} (h : Numeral.Spells negative cs n) :
    ∀ c ∈ cs, 0x20 < c.toNat ∧ c.toNat ≤ 0x7E := by
  have digit {ds : List Char} (hd : Numeral.Digits ds) : ∀ c ∈ ds, 0x20 < c.toNat ∧ c.toNat ≤ 0x7E := by
    intro c hc
    have hb : 48 ≤ c.toNat ∧ c.toNat ≤ 57 := by
      have := hd.2 c hc
      simpa [Char.isDigit, UInt32.le_iff_toNat_le] using this
    omega
  cases h with
  | bare hd => exact digit hd
  | plus hd => exact List.forall_mem_cons.mpr ⟨by decide, digit hd⟩
  | minus _ hd => exact List.forall_mem_cons.mpr ⟨by decide, digit hd⟩

theorem not_isBlank_of_visible {c : Char} (h : 0x20 < c.toNat ∧ c.toNat ≤ 0x7E) :
    Text.isBlank c = false := by
  rw [← Bool.not_eq_true]
  simp only [Text.isBlank, Bool.or_eq_true, Bool.and_eq_true, decide_eq_true_iff, beq_iff_eq]
  omega

theorem blanks_of_padding {bytes : List UInt8} (h : Padding bytes) :
    (∀ b ∈ bytes, isTextByte b = true) ∧ Text.Blanks (bytes.map charOf) := by
  have ht : ∀ b ∈ bytes, isTextByte b = true := by
    intro b hb
    rcases h b hb with rfl | rfl <;> decide
  refine ⟨ht, fun c hc => ?_⟩
  obtain ⟨b, hb, rfl⟩ := List.mem_map.mp hc
  exact (isBlank_charOf (ht b hb)).mpr (h b hb)

theorem padding_of_blanks {bytes : List UInt8} (text : ∀ b ∈ bytes, isTextByte b = true)
    (blank : Text.Blanks (bytes.map charOf)) : Padding bytes := fun b hb =>
  (isBlank_charOf (text b hb)).mp (blank _ (List.mem_map_of_mem hb))

/-- The bytes of visible ASCII are text, and the text they were made of. -/
theorem textOf_encode {cs : List Char} (visible : ∀ c ∈ cs, 0x20 < c.toNat ∧ c.toNat ≤ 0x7E) :
    (∀ b ∈ encode (String.ofList cs), isTextByte b = true) ∧
      (encode (String.ofList cs)).map charOf = cs := by
  have back : ∀ c ∈ cs, (UInt8.ofNat c.toNat).toNat = c.toNat := fun c hc =>
    UInt8.toNat_ofNat_of_lt' ((visible c hc).2.trans_lt (by decide))
  rw [Text.Utf8.encode_ascii fun c hc => (visible c hc).2.trans_lt (by decide)]
  constructor
  · intro b hb
    obtain ⟨c, hc, rfl⟩ := List.mem_map.mp hb
    rw [isTextByte_iff, back c hc]
    exact .inr ⟨(visible c hc).1.le, (visible c hc).2⟩
  · rw [List.map_map]
    refine (List.map_congr_left fun c hc => ?_).trans (List.map_id cs)
    rw [Function.comp_apply, charOf, back c hc, Char.ofNat_toNat]
    rfl

/-- Text of visible ASCII is made of its own bytes. -/
theorem eq_encode_of_charOf {bytes : List UInt8} (text : ∀ b ∈ bytes, isTextByte b = true) :
    bytes = encode (String.ofList (bytes.map charOf)) := by
  have ascii : ∀ c ∈ bytes.map charOf, c.toNat < 0x80 := by
    intro c hc
    obtain ⟨b, hb, rfl⟩ := List.mem_map.mp hc
    have ht := (isTextByte_iff b).mp (text b hb)
    rw [toNat_charOf (text b hb)]
    omega
  rw [Text.Utf8.encode_ascii ascii, List.map_map]
  refine ((List.map_congr_left fun b hb => ?_).trans (List.map_id bytes)).symm
  rw [Function.comp_apply, toNat_charOf (text b hb), UInt8.ofNat_toNat]
  rfl

/-- **A value says a number just if it is a text that is a numeral of it once trimmed.** -/
theorem says_iff : Says negative value n ↔
    ∃ text, textOf value = some text ∧ Numeral.Spells negative (Text.trim text) n := by
  constructor
  · rintro ⟨before, numeral, after, rfl, hb, ha, hs⟩
    obtain ⟨htb, hbb⟩ := blanks_of_padding hb
    obtain ⟨hta, hba⟩ := blanks_of_padding ha
    have visible := visible_of_spells hs
    obtain ⟨htn, hn⟩ := textOf_encode visible
    rw [String.ofList_toList] at htn hn
    have solid : ∀ c ∈ numeral.toList, Text.isBlank c = false := fun c hc =>
      not_isBlank_of_visible (visible c hc)
    refine ⟨before.map charOf ++ numeral.toList ++ after.map charOf, textOf_eq_some_iff.mpr ⟨?_, ?_⟩, ?_⟩
    · exact List.forall_mem_append.mpr ⟨List.forall_mem_append.mpr ⟨htb, htn⟩, hta⟩
    · rw [List.map_append, List.map_append, hn]
    · rwa [Text.trim_surrounded hbb hba (fun c hc => solid c (List.mem_of_head? hc))
        fun c hc => solid c (List.mem_of_getLast? hc)]
  · rintro ⟨text, ht, hs⟩
    obtain ⟨htext, rfl⟩ := textOf_eq_some_iff.mp ht
    obtain ⟨b, a, hcut, hb, ha⟩ := Text.exists_trim (value.map charOf)
    obtain ⟨v, after, rfl, hv, hafter⟩ := List.map_eq_append_iff.mp hcut
    obtain ⟨before, numeral, rfl, hbefore, hnumeral⟩ := List.map_eq_append_iff.mp hv
    obtain ⟨hleft, hta⟩ := List.forall_mem_append.mp htext
    obtain ⟨htb, htn⟩ := List.forall_mem_append.mp hleft
    refine ⟨before, String.ofList (numeral.map charOf), after, ?_, ?_, ?_, ?_⟩
    · rw [← eq_encode_of_charOf htn]
    · exact padding_of_blanks htb (hbefore ▸ hb)
    · exact padding_of_blanks hta (hafter ▸ ha)
    · rwa [String.toList_ofList, hnumeral]

/-! ## Fields -/

/-- The first value of the name says the number. -/
def Told (headers : List Header) (name : String) (negative : Bool) (n : Int) : Prop :=
  ∃ value, Leads headers name value ∧ Says negative value n

variable {headers : List Header} {name : String}

theorem told_iff : Told headers name negative n ↔
    ∃ cs, field headers name = some cs ∧ Numeral.Spells negative cs n := by
  simp only [Told, ← first?_eq_some_iff, says_iff, field, Option.map_eq_some_iff, Option.bind_eq_some_iff]
  constructor
  · rintro ⟨value, hv, text, ht, hs⟩
    exact ⟨_, ⟨text, ⟨value, hv, ht⟩, rfl⟩, hs⟩
  · rintro ⟨_, ⟨text, ⟨value, hv, ht⟩, rfl⟩, hs⟩
    exact ⟨value, hv, text, ht, hs⟩

/-- **A field without a sign is there just if its number is told** and fits 32 bits. -/
theorem wordField_eq_some_iff {n : Nat} :
    wordField headers name = some n ↔ n < 2 ^ 32 ∧ Told headers name false n := by
  have top : Nat.pow 2 32 - 1 = 4294967295 := rfl
  rw [wordField, Option.bind_eq_some_iff, told_iff]
  simp only [Numeral.unsigned_eq_some_iff, top]
  constructor
  · rintro ⟨cs, hf, hn, hs⟩
    exact ⟨by omega, cs, hf, hs⟩
  · rintro ⟨hn, cs, hf, hs⟩
    exact ⟨cs, hf, by omega, hs⟩

/-- **A field with a sign is there just if its number is told** and fits 64 bits. -/
theorem longField_eq_some_iff :
    longField headers name = some n ↔ (-2 ^ 63 ≤ n ∧ n < 2 ^ 63) ∧ Told headers name true n := by
  have bound : Nat.pow 2 63 = 9223372036854775808 := rfl
  rw [longField, Option.bind_eq_some_iff, told_iff]
  simp only [Numeral.signed_eq_some_iff, bound]
  constructor
  · rintro ⟨cs, hf, hn, hs⟩
    exact ⟨by omega, cs, hf, hs⟩
  · rintro ⟨hn, cs, hf, hs⟩
    exact ⟨cs, hf, by omega, hs⟩

/-! ## Quotas in headers -/

/-- The names of the fields. -/
def names : List String := ["x-ratelimit-limit", "x-ratelimit-remaining", "x-ratelimit-reset"]

theorem ofHeaders_getD (headers : List Header) : (ofHeaders headers).getD empty =
    { limit := wordField headers "x-ratelimit-limit"
      remaining := wordField headers "x-ratelimit-remaining"
      reset := longField headers "x-ratelimit-reset" } := by
  unfold ofHeaders
  dsimp only
  split
  · next h => exact h.symm
  · rfl

theorem ofHeaders_eq_none_iff (headers : List Header) :
    ofHeaders headers = none ↔ (ofHeaders headers).getD empty = empty := by
  rw [ofHeaders_getD]
  unfold ofHeaders
  dsimp only
  split <;> simp [*]

theorem ofHeaders_remove {front rest : List Header} {h : Header}
    (idle : ∀ name ∈ names, h.Named name → ∃ g ∈ front, g.Named name) :
    ofHeaders (front ++ rest) = ofHeaders (front ++ h :: rest) := by
  have same : ∀ name ∈ names, field (front ++ h :: rest) name = field (front ++ rest) name :=
    fun name hn => congrArg _ (congrArg (Option.bind · textOf) (first?_remove (idle name hn)))
  simp only [names, List.forall_mem_cons] at same
  obtain ⟨limit, remaining, reset, -⟩ := same
  rw [ofHeaders, ofHeaders, wordField, wordField, longField, longField, wordField, wordField, limit,
    remaining, reset]

/-- The headers have the number under the name: one of them, and no other of this name, has its decimal numeral
  between tabs and spaces. Without a number they have no header of the name. -/
def Carries (headers : List Header) (name : String) : Option Int → Prop
  | none => ∀ h ∈ headers, ¬ h.Named name
  | some n => ∃ front h rest before after, headers = front ++ h :: rest ∧
    (∀ g ∈ front ++ rest, ¬ g.Named name) ∧ h.Named name ∧
    h.value = before ++ encode (toString n) ++ after ∧ Padding before ∧ Padding after

/-- The headers say what the quota does, in any order and among any others. -/
structure WrittenIn (q : Quota) (headers : List Header) : Prop where
  limit : Carries headers "x-ratelimit-limit" (q.limit.map Int.ofNat)
  remaining : Carries headers "x-ratelimit-remaining" (q.remaining.map Int.ofNat)
  reset : Carries headers "x-ratelimit-reset" q.reset

/-- Each number has the width that its field can hold. -/
structure Fits (q : Quota) : Prop where
  limit : ∀ n, q.limit = some n → n < 2 ^ 32
  remaining : ∀ n, q.remaining = some n → n < 2 ^ 32
  reset : ∀ n, q.reset = some n → -2 ^ 63 ≤ n ∧ n < 2 ^ 63

theorem told_of_carries (h : Carries headers name (some n)) (sign : n < 0 → negative = true) :
    Told headers name negative n := by
  obtain ⟨front, header, rest, before, after, rfl, others, named, value, hb, ha⟩ := h
  refine ⟨header.value, ⟨front, header, rest, rfl, fun g hg => ?_, named, rfl⟩, ?_⟩
  · exact others g (List.mem_append_left _ hg)
  · exact ⟨before, toString n, after, value, hb, ha, Numeral.spells_toString sign⟩

theorem field_of_carries_none (h : Carries headers name none) : field headers name = none := by
  rw [field, first?_eq_none h]
  rfl

theorem wordField_of_carries {value : Option Nat} (h : Carries headers name (value.map Int.ofNat))
    (fits : ∀ n, value = some n → n < 2 ^ 32) : wordField headers name = value := by
  cases value with
  | none => rw [wordField, field_of_carries_none h]; rfl
  | some n =>
    exact wordField_eq_some_iff.mpr ⟨fits n rfl, told_of_carries h fun hn => absurd hn (by simp)⟩

theorem longField_of_carries {value : Option Int} (h : Carries headers name value)
    (fits : ∀ n, value = some n → -2 ^ 63 ≤ n ∧ n < 2 ^ 63) : longField headers name = value := by
  cases value with
  | none => rw [longField, field_of_carries_none h]; rfl
  | some n => exact longField_eq_some_iff.mpr ⟨fits n rfl, told_of_carries h fun _ => rfl⟩

theorem ofHeaders_of_written {q : Quota} (fits : q.Fits) (set : q ≠ empty) (h : q.WrittenIn headers) :
    ofHeaders headers = some q := by
  have hq : (ofHeaders headers).getD empty = q := by
    rw [ofHeaders_getD, wordField_of_carries h.limit fits.limit,
      wordField_of_carries h.remaining fits.remaining, longField_of_carries h.reset fits.reset]
  cases ho : ofHeaders headers with
  | none =>
    rw [ho] at hq
    exact absurd hq.symm set
  | some r =>
    rw [ho] at hq
    exact congrArg some hq

/-- **The headers are read exactly.** A field is there just if the first value of its name says a number and the
  number has the width of the field, so none is cut to fit; with no field there is no quota. Headers of other names
  and those that come after one of the same name do not matter. A quota that is written into headers, in
  any order and among any others, is the one read. -/
theorem quota_of_headers (headers : List Header) :
    let read := (ofHeaders headers).getD empty
    (∀ n, read.limit = some n ↔ n < 2 ^ 32 ∧ Told headers "x-ratelimit-limit" false n) ∧
      (∀ n, read.remaining = some n ↔ n < 2 ^ 32 ∧ Told headers "x-ratelimit-remaining" false n) ∧
      (∀ n, read.reset = some n ↔
        (-2 ^ 63 ≤ n ∧ n < 2 ^ 63) ∧ Told headers "x-ratelimit-reset" true n) ∧
      (ofHeaders headers = none ↔ read.limit = none ∧ read.remaining = none ∧ read.reset = none) ∧
      (∀ front h rest, headers = front ++ h :: rest →
        (∀ name ∈ names, h.Named name → ∃ g ∈ front, g.Named name) →
        ofHeaders (front ++ rest) = ofHeaders headers) ∧
      ∀ q : Quota, q.Fits → q ≠ empty → q.WrittenIn headers → ofHeaders headers = some q := by
  intro read
  have hr : read = _ := ofHeaders_getD headers
  refine ⟨fun n => ?_, fun n => ?_, fun n => ?_, ?_, ?_, fun q => ofHeaders_of_written⟩
  · rw [hr]
    exact wordField_eq_some_iff
  · rw [hr]
    exact wordField_eq_some_iff
  · rw [hr]
    exact longField_eq_some_iff
  · rw [ofHeaders_eq_none_iff]
    change read = empty ↔ _
    cases read
    simp [empty]
  · rintro front h rest rfl idle
    exact ofHeaders_remove idle

/-- The largest limit and the earliest reset, their names in other letter case and blanks around them. -/
theorem quota_of_headers_of_extremes :
    let q : Quota := ⟨some 4294967295, none, some (-9223372036854775808)⟩
    let headers : List Header :=
      [⟨"X-RateLimit-Reset", [0x20] ++ encode (toString (-9223372036854775808 : Int)) ++ [0x09, 0x20]⟩,
        ⟨"Retry-After", encode "7"⟩, ⟨"x-RATELIMIT-limit", encode (toString (4294967295 : Int)) ++ [0x20]⟩]
    q.Fits ∧ q ≠ empty ∧ q.WrittenIn headers ∧ ofHeaders headers = some q := by
  intro q headers
  have fits : q.Fits := ⟨by simp [q], by simp [q], by simp [q]⟩
  have set : q ≠ empty := by decide
  have written : q.WrittenIn headers :=
    { limit := ⟨headers.take 2, _, [], [], [0x20], rfl, by decide, by decide, rfl, by decide, by decide⟩
      remaining := (by decide : ∀ h ∈ headers, ¬ h.Named _)
      reset := ⟨[], _, headers.drop 1, [0x20], [0x09, 0x20], rfl, by decide, by decide, rfl, by decide, by decide⟩ }
  exact ⟨fits, set, written, (quota_of_headers headers).2.2.2.2.2 q fits set written⟩

end Quota

end Converse
