import Converse.Proofs.Json.Records
import Converse.Proofs.Json.Writing

/-
  Decoders that find a value again in what it is written as.

  `Recovers` says so of one value, whether a text is being read or a value that was read before. It is
  established part by part: a list from its items, a record from its fields (`Shape.recovers`), a tagged
  choice from the record that was chosen (`recovers_tagged`). `ofText_compact` is the result: a value that
  is recovered is read from its text, if its numbers are integers and it is not nested too deep.
-/

namespace Converse.Json

/-- The decoder finds the value in what is written for it. -/
def Recovers {α : Type} (decode : Decoder α) (v : Json) (a : α) : Prop :=
  ∀ mode, decode mode v.toDraft = .ok a

/-! ## Plain values -/

theorem recovers_text (s : String) : Recovers text (.string s) s := fun _ => text_eq_ok_iff.mpr rfl

theorem recovers_flag (b : Bool) : Recovers flag (.bool b) b := fun _ => flag_eq_ok_iff.mpr rfl

/-- A 64-bit integer. -/
def FitsLong (n : Int) : Prop := -Nat.pow 2 63 ≤ n ∧ n ≤ Nat.pow 2 63 - 1

instance (n : Int) : Decidable (FitsLong n) := inferInstanceAs (Decidable (_ ∧ _))

theorem FitsLong.fitsWord {n : Int} (h : FitsLong n) : FitsWord n := by
  have hbottom : Nat.pow 2 63 = 9223372036854775808 := rfl
  have htop : wordTop = 18446744073709551615 := rfl
  unfold FitsLong at h
  unfold FitsWord
  omega

theorem recovers_long {n : Int} (h : FitsLong n) : Recovers long (integer n) n := by
  intro mode
  have hn : (decide (-Nat.pow 2 63 ≤ n) && decide (n ≤ Nat.pow 2 63 - 1)) = true := by
    rw [Bool.and_eq_true, decide_eq_true_eq, decide_eq_true_eq]
    exact h
  exact if_pos hn

/-- Members that are in order stay as they are. -/
theorem recovers_freeMap {ms : Members} (h : (object ms).Sorted) : Recovers freeMap (.object ms) ms :=
  fun _ => freeMap_eq_ok_iff.mpr ⟨ms, rfl, (Json.object.inj h.settled).symm⟩

theorem recovers_choice {α : Type} {choices : List (String × α)} {name : String} {a : α}
    (h : choices.lookup name = some a) : Recovers (choice choices) (.string name) a :=
  fun _ => named_eq_ok_iff.mpr h

variable {α β : Type} {decode : Decoder α} {v : Json} {a : α}

theorem Recovers.map (h : Recovers decode v a) (f : α → β) :
    Recovers (fun mode d => (decode mode d).map f) v (f a) :=
  fun mode => map_eq_ok_iff.mpr ⟨a, h mode, rfl⟩

theorem Recovers.optional (h : Recovers decode v a) (hv : v ≠ .null) :
    Recovers (optional decode) v (some a) :=
  fun mode => optional_eq_ok_iff.mpr (.inr ⟨hv, a, h mode, rfl⟩)

/-- Null is recovered where a value is missing, and a value that is not written as null. -/
theorem recovers_ofOption {write : α → Json} {x : Option α}
    (h : ∀ a ∈ x, write a ≠ .null ∧ Recovers decode (write a) a) :
    Recovers (Json.optional decode) (ofOption write x) x := by
  cases x with
  | none => exact fun _ => rfl
  | some a => exact (h a rfl).2.optional (h a rfl).1

theorem recovers_sequence {write : α → Json} {as : List α}
    (h : ∀ a ∈ as, Recovers decode (write a) a) :
    Recovers (sequence decode) (.array (as.map write)) as := by
  intro mode
  have hall : decodeAll (decode mode) (itemDrafts (as.map write)) = .ok as := by
    induction as with
    | nil => rfl
    | cons a as ih =>
      obtain ⟨ha, has⟩ := List.forall_mem_cons.mp h
      rw [List.map_cons, itemDrafts, decodeAll, ha mode, ih has]
      rfl
  simp only [sequence, toDraft, hall, if_true]

/-! ## Records -/

namespace Shape

variable {σ : Type}

/-- The members give the fields in their order, one record after another, and leave out none that is needed. -/
inductive Fills (mode : Mode) : List (Field σ) → Members → σ → σ → Prop
  | nil (r : σ) : Fills mode [] [] r r
  | given {f : Field σ} {fs : List (Field σ)} {v : Json} {ms : Members} {r r' s : σ}
      (h : f.set mode v.toDraft r = .ok r') (rest : Fills mode fs ms r' s) :
      Fills mode (f :: fs) ((f.name, v) :: ms) r s
  | omitted {f : Field σ} {fs : List (Field σ)} {ms : Members} {r s : σ} (h : f.need ≠ .always)
      (rest : Fills mode fs ms r s) : Fills mode (f :: fs) ms r s

/-- A field whose value is recovered. -/
theorem Fills.of {mode : Mode} {name : String} {need : Need} {place : α → σ → σ} {fs : List (Field σ)}
    {ms : Members} {r s : σ} (h : Recovers decode v a) (rest : Fills mode fs ms (place a r) s) :
    Fills mode (.of name need decode place :: fs) ((name, v) :: ms) r s :=
  .given (map_eq_ok_iff.mpr ⟨a, h mode, rfl⟩) rest

/-- Members that give fields are set, and every field that is needed is found. -/
theorem setMembers_of_fills {shape : Shape σ} (hn : shape.fields.Pairwise (·.name ≠ ·.name)) {mode : Mode}
    {fs : List (Field σ)} {ms : Members} {r s : σ} (h : Fills mode fs ms r s)
    (hfs : ∀ f ∈ fs, f ∈ shape.fields) (hp : fs.Pairwise (·.name ≠ ·.name)) {found : List String}
    (hf : ∀ f ∈ fs, f.name ∉ found) :
    ∃ found', shape.setMembers mode found r (memberDrafts ms) = .ok (found', s) ∧ found ⊆ found' ∧
      ∀ f ∈ fs, f.need = .always → f.name ∈ found' := by
  induction h generalizing found with
  | nil r => exact ⟨found, rfl, List.Subset.refl found, fun _ hm => nomatch hm⟩
  | @given f fs v ms r r' s hset _ ih =>
    obtain ⟨hmem, hfs⟩ := List.forall_mem_cons.mp hfs
    obtain ⟨hne, hp⟩ := List.pairwise_cons.mp hp
    obtain ⟨hnew, hf⟩ := List.forall_mem_cons.mp hf
    have hf' : ∀ g ∈ fs, g.name ∉ f.name :: found :=
      fun g hg => List.not_mem_cons_of_ne_of_not_mem (hne g hg).symm (hf g hg)
    obtain ⟨found', hset', hsub, hneed⟩ := ih hfs hp hf'
    obtain ⟨hhead, hsub⟩ := List.cons_subset.mp hsub
    refine ⟨found', ?_, hsub, List.forall_mem_cons.mpr ⟨fun _ => hhead, hneed⟩⟩
    rw [memberDrafts, setMembers, find?_name hn hmem]
    simp only [hset, List.contains_iff_mem, hnew, if_false, hset']
  | omitted hopt _ ih =>
    obtain ⟨-, hfs⟩ := List.forall_mem_cons.mp hfs
    obtain ⟨-, hf⟩ := List.forall_mem_cons.mp hf
    obtain ⟨found', hset, hsub, hneed⟩ := ih hfs (List.pairwise_cons.mp hp).2 hf
    exact ⟨found', hset, hsub, List.forall_mem_cons.mpr ⟨fun ha => absurd ha hopt, hneed⟩⟩

/-- **A record is recovered if each field is.** -/
theorem recovers {shape : Shape σ} (hn : (shape.fields.map Field.name).Nodup) {ms : Members} {s : σ}
    (h : ∀ mode, Fills mode shape.fields ms shape.blank s) : Recovers shape.decode (.object ms) s := by
  intro mode
  have hn := List.pairwise_map.mp hn
  obtain ⟨found, hset, -, hneed⟩ := setMembers_of_fills hn (h mode) (fun _ hf => hf) hn
    fun _ _ => List.not_mem_nil
  have hnone : shape.fields.find? (fun f => f.need == .always && !found.contains f.name) = none := by
    refine List.find?_eq_none.mpr fun f hf hmiss => ?_
    rw [Bool.and_eq_true, Bool.not_eq_true', beq_iff_eq] at hmiss
    rw [List.contains_iff_mem.mpr (hneed f hf hmiss.1)] at hmiss
    cases hmiss.2
  have hdecode : shape.decode mode (toDraft (.object ms)) = shape.ofMembers mode (memberDrafts ms) true :=
    rfl
  rw [hdecode, ofMembers, hset]
  simp only [hnone, Bool.not_true, Bool.false_eq_true, if_false]

end Shape

/-! ## Choices between records -/

/-- A choice is recovered if the record is that stands beside its tag. -/
theorem recovers_tagged {title name : String} {choices : List (String × Decoder α)} {ms : Members}
    (hl : choices.lookup name = some decode) (hd : Members.Distinct ((tagName, .string name) :: ms))
    (h : Recovers decode (.object ms) a) :
    Recovers (tagged title choices) (.object ((tagName, .string name) :: ms)) a := by
  intro mode
  have huntag : untagged ((tagName, .string name) :: ms) = ms := by
    unfold untagged
    rw [List.filter_cons_of_neg (by simp), List.filter_eq_self]
    intro m hm
    have hne : m.1 ≠ tagName := fun he => (List.nodup_cons.mp hd).1 (List.mem_map.mpr ⟨m, hm, he⟩)
    simpa using hne
  refine (tagged_object hd).mpr ⟨name, decode, List.lookup_cons_self, hl, ?_⟩
  rw [huntag]
  exact h .buffered

theorem recovers_bare (a : α) : Recovers (bare a) (.object []) a := fun _ => rfl

/-! ## Whole texts -/

theorem integral_items {write : α → Json} {as : List α} (h : ∀ a ∈ as, (write a).Integral) :
    (array (as.map write)).Integral := .array (List.forall_mem_map.mpr h)

theorem integral_ofOption {write : α → Json} {x : Option α} (h : ∀ a ∈ x, (write a).Integral) :
    (ofOption write x).Integral := by
  cases x with
  | none => exact .null
  | some a => exact h a rfl

/-- **What is recovered is read from its text.** -/
theorem ofText_compact (h : Recovers decode v a) (hi : v.Integral) (hd : v.depth ≤ maxDepth) :
    decode.ofText v.compact = .ok a := by
  have hread : Source.ofString v.compact = ⟨v.toDraft, true⟩ := by
    unfold Source.ofString compact
    rw [String.toList_ofList]
    exact Writes.read (spells_chars hi hd).bare
  unfold Decoder.ofText
  simp only [hread, h .live, if_true]

end Converse.Json
