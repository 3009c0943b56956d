import Converse.Proofs.Text.Decoding
import Converse.Proofs.Toml.Writing
import Converse.Terminal.Preferences

/-
  Preferences that are kept.

  `HeldBy` says what entries must hold for preferences to be read of them: under each key what is set, and
  nothing under the others (`ofEntries_eq_some_iff`). The text that keeps preferences is one line for each
  that is set, so its entries hold them (`ofText_text`). `load_save` is the result: what was saved is loaded, and a
  file is taken as a whole or leaves nothing set.
-/

namespace Converse

open Text.Utf8 (encode)

namespace Preferences

/-! ## Entries -/

/-- The entries hold the preferences: under the key of each one just what is set. -/
structure HeldBy (p : Preferences) (entries : Toml.Entries) : Prop where
  baseUrl : entries.lookup "base_url" = p.baseUrl.map .text
  token : entries.lookup "verification_token" = p.token.map .text
  bypass : entries.lookup "bypass_verification" = p.bypass.map .flag
  strict : entries.lookup "strict_tool_matching" = p.strict.map .flag
  logFilter : entries.lookup "log_filter" = p.logFilter.map .text

theorem textAt_eq_some_iff {entries : Toml.Entries} {key : String} {value : Option String} :
    textAt entries key = some value ↔ entries.lookup key = value.map .text := by
  unfold textAt
  cases entries.lookup key with
  | none => cases value <;> simp only [Option.map_none, Option.map_some, Option.some.injEq, reduceCtorEq]
  | some item => cases item <;> cases value <;> simp

theorem flagAt_eq_some_iff {entries : Toml.Entries} {key : String} {value : Option Bool} :
    flagAt entries key = some value ↔ entries.lookup key = value.map .flag := by
  unfold flagAt
  cases entries.lookup key with
  | none => cases value <;> simp only [Option.map_none, Option.map_some, Option.some.injEq, reduceCtorEq]
  | some item => cases item <;> cases value <;> simp

theorem ofEntries_eq_some_iff {entries : Toml.Entries} {p : Preferences} :
    ofEntries entries = some p ↔ p.HeldBy entries := by
  simp only [ofEntries, Option.bind_eq_bind, Option.bind_eq_some_iff, textAt_eq_some_iff, flagAt_eq_some_iff,
    Option.some.injEq]
  constructor
  · rintro ⟨baseUrl, hb, token, ht, bypass, hy, strict, hs, logFilter, hl, rfl⟩
    exact ⟨hb, ht, hy, hs, hl⟩
  · rintro ⟨hb, ht, hy, hs, hl⟩
    exact ⟨_, hb, _, ht, _, hy, _, hs, _, hl, rfl⟩

/-! ## Lines -/

section Line

variable {α : Type} (write : α → List Char) (item : α → Toml.Item) (key : String) (value : Option α)

/-- The line of a value, if it is set. -/
def lineOf : List Toml.Line := (value.map fun a => ⟨key, write a, item a⟩).toList

theorem written_lineOf : (lineOf write item key value).flatMap Toml.Line.written =
    (value.map fun a => Toml.writtenLine key (write a)).getD [] := by
  cases value with
  | none => rfl
  | some a => exact List.append_nil _

theorem keys_lineOf : ((lineOf write item key value).map (·.key)).Sublist [key] := by
  cases value with
  | none => exact List.nil_sublist _
  | some a => exact List.Sublist.refl _

theorem lookup_lineOf (k : String) :
    ((lineOf write item key value).map Toml.Line.entry).lookup k =
      if k = key then value.map item else none := by
  cases value with
  | none => exact (ite_self none).symm
  | some a =>
    by_cases hk : k = key
    · simp [lineOf, Toml.Line.entry, hk]
    · have hb : (k == key) = false := beq_eq_false_iff_ne.mpr hk
      simp [lineOf, Toml.Line.entry, List.lookup_cons, hk, hb]

variable {write item key value}

theorem sound_lineOf (bare : Toml.IsBare key)
    (writes : ∀ a ∈ value.toList, Toml.WritesAs (write a) (item a)) :
    ∀ l ∈ lineOf write item key value, l.Sound := by
  cases value with
  | none => exact fun _ h => nomatch h
  | some a => exact List.forall_mem_singleton.mpr ⟨bare, writes a List.mem_cons_self⟩

end Line

/-- The lines of the text that keeps preferences. -/
def lines (p : Preferences) : List Toml.Line :=
  lineOf Toml.writtenText .text "base_url" p.baseUrl
    ++ lineOf Toml.writtenText .text "verification_token" p.token
    ++ lineOf Toml.writtenFlag .flag "bypass_verification" p.bypass
    ++ lineOf Toml.writtenFlag .flag "strict_tool_matching" p.strict
    ++ lineOf Toml.writtenText .text "log_filter" p.logFilter

theorem text_eq (p : Preferences) : p.text = String.ofList (p.lines.flatMap Toml.Line.written) := by
  simp only [lines, List.flatMap_append, written_lineOf]
  rfl

/-- No text among the preferences has a quote, a backslash or a control character. -/
def Plain (p : Preferences) : Prop :=
  ∀ s ∈ p.baseUrl.toList ++ p.token.toList ++ p.logFilter.toList, Toml.Plain s

instance : DecidablePred Plain := fun _ => List.decidableBAll _ _

theorem sound_lines {p : Preferences} (plain : p.Plain) : ∀ l ∈ p.lines, l.Sound := by
  simp only [Plain, List.forall_mem_append] at plain
  obtain ⟨⟨baseUrl, token⟩, logFilter⟩ := plain
  simp only [lines, List.forall_mem_append]
  exact ⟨⟨⟨⟨sound_lineOf (by decide) fun s hs => .text (baseUrl s hs),
    sound_lineOf (by decide) fun s hs => .text (token s hs)⟩,
    sound_lineOf (by decide) fun b _ => .flag b⟩, sound_lineOf (by decide) fun b _ => .flag b⟩,
    sound_lineOf (by decide) fun s hs => .text (logFilter s hs)⟩

/-- No key has two lines. -/
theorem distinct_lines (p : Preferences) : (p.lines.map (·.key)).Nodup := by
  have all : ["base_url", "verification_token", "bypass_verification", "strict_tool_matching",
    "log_filter"].Nodup := by decide
  refine List.Nodup.sublist ?_ all
  simp only [lines, List.map_append]
  exact ((((keys_lineOf ..).append (keys_lineOf ..)).append (keys_lineOf ..)).append
    (keys_lineOf ..)).append (keys_lineOf ..)

theorem heldBy_lines (p : Preferences) : p.HeldBy (p.lines.map Toml.Line.entry) := by
  constructor <;> simp [lines, List.lookup_append, lookup_lineOf]

theorem ofText_eq_some_iff {s : String} {p : Preferences} :
    ofText s = some p ↔ ∃ entries, Toml.read? s = some entries ∧ p.HeldBy entries := by
  simp only [ofText, Option.bind_eq_some_iff, ofEntries_eq_some_iff]

/-- **The text that keeps preferences is read as just these.** -/
theorem ofText_text {p : Preferences} (plain : p.Plain) : ofText p.text = some p := by
  rw [ofText_eq_some_iff, text_eq]
  exact ⟨_, Toml.read?_lines (sound_lines plain) (distinct_lines p), heldBy_lines p⟩

end Preferences

namespace PreferencesFile

/-! ## The file -/

theorem load_of_text (s : String) : (bytes (encode s)).load =
    match Preferences.ofText s with
    | some p => (p, none)
    | none => (.unset, some .malformed) := by
  have hr : Text.Utf8.read (encode s) = .ok s := Text.Utf8.read_eq_ok_iff.mpr rfl
  cases ho : Preferences.ofText s <;> simp only [load, hr, ho]

theorem load_of_no_text {content : List UInt8} (h : ∀ s, content ≠ encode s) :
    (bytes content).load = (.unset, some .unreadable) := by
  cases hr : Text.Utf8.read content with
  | error e => rw [load, hr]
  | ok s => exact absurd (Text.Utf8.read_eq_ok_iff.mp hr) (h s)

/-- A file that is not used leaves nothing set. -/
theorem load_of_fault {f : PreferencesFile} (h : f.load.2 ≠ none) : f.load.1 = .unset := by
  cases f with
  | bytes content =>
    by_cases ht : ∃ s, content = encode s
    · obtain ⟨s, rfl⟩ := ht
      rw [load_of_text] at *
      split at *
      · exact absurd rfl h
      · rfl
    · rw [load_of_no_text (not_exists.mp ht)]
  | _ => rfl

/-- **Bytes are used just if they are a text whose entries hold preferences**, and then these are loaded. -/
theorem load_bytes_iff {content : List UInt8} {p : Preferences} :
    (bytes content).load = (p, none) ↔
      ∃ s entries, content = encode s ∧ Toml.read? s = some entries ∧ p.HeldBy entries := by
  constructor
  · intro h
    by_cases ht : ∃ s, content = encode s
    · obtain ⟨s, rfl⟩ := ht
      rw [load_of_text] at h
      split at h
      · next q hq =>
        cases h
        obtain ⟨entries, he⟩ := Preferences.ofText_eq_some_iff.mp hq
        exact ⟨s, entries, rfl, he⟩
      · cases h
    · rw [load_of_no_text (not_exists.mp ht)] at h
      cases h
  · rintro ⟨s, entries, rfl, he⟩
    rw [load_of_text, Preferences.ofText_eq_some_iff.mpr ⟨entries, he⟩]

/-- What was saved is loaded. -/
theorem load_of_saved {p : Preferences} (plain : p.Plain) {f : PreferencesFile} (blocked : f ≠ .blocked)
    (directory : f ≠ .directory) : ∃ g, f.save p = some g ∧ g.load = (p, none) := by
  have hload : (bytes (encode p.text)).load = (p, none) := by
    rw [load_of_text, Preferences.ofText_text plain]
  cases f with
  | blocked => exact absurd rfl blocked
  | directory => exact absurd rfl directory
  | _ => exact ⟨_, rfl, hload⟩

/-- **Saving loses nothing.** Preferences without quotes, backslashes and control characters in their texts are
  loaded from the file into which they were saved, if that can be written. So whatever bytes a file has, what is
  loaded of it stays the same when it is saved and loaded again. Bytes are used as a whole, if they
  are a text all of whose keys that matter have what belongs under them, or else they leave nothing set;
  they cannot be read just if they are those of no text. -/
theorem load_save (f : PreferencesFile) :
    (∀ p : Preferences, p.Plain → f ≠ .blocked → f ≠ .directory →
      ∃ g, f.save p = some g ∧ g.load = (p, none)) ∧
    (∀ content, f = .bytes content →
      (f.load.1.Plain → ∃ g, f.save f.load.1 = some g ∧ g.load = (f.load.1, none)) ∧
      (∀ p, f.load = (p, none) ↔
        ∃ s entries, content = encode s ∧ Toml.read? s = some entries ∧ p.HeldBy entries) ∧
      (f.load.2 = some .unreadable ↔ ∀ s, content ≠ encode s)) ∧
    (f.load.2 ≠ none → f.load.1 = .unset) := by
  refine ⟨fun p plain => load_of_saved plain, ?_, load_of_fault⟩
  rintro content rfl
  refine ⟨fun plain => load_of_saved plain (by simp) (by simp), fun p => load_bytes_iff, ?_, ?_⟩
  · rintro h s rfl
    rw [load_of_text] at h
    split at h <;> cases h
  · intro h
    rw [load_of_no_text h]

/-- An empty text, and one with marks that mean something elsewhere; and bytes that are no text. -/
theorem load_save_of_marks :
    let p : Preferences := ⟨some "", some "# = [x] 'é' base_url", some true, none, some "warn,statline=debug"⟩
    p.Plain ∧ (∃ g, PreferencesFile.absent.save p = some g ∧ g.load = (p, none)) ∧
      (bytes [0x62, 0xFF]).load.1 = .unset :=
  ⟨by decide, (load_save .absent).1 _ (by decide) (by decide) (by decide),
    (load_save (bytes [0x62, 0xFF])).2.2 (by decide)⟩

end PreferencesFile

end Converse
