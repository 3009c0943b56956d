import Converse.Proofs.Json.Settled
import Converse.Json.Decode
import Mathlib.Data.List.Nodup
import Mathlib.Data.List.Pairwise

/-
  Records read from objects that are known.

  A decoder meets the members of an object in the order in which they stand. If none is repeated, and fields
  can be set in any order, nothing depends on that order: the record is made by looking up the fields one
  after another. `Shape.decode_object` says so of a record, `tagged_object` of a choice between records.
-/

namespace Converse.Json

/-! ## Plain values -/

variable {mode : Mode} {v : Json}

theorem ok_iff_toOption {ε α : Type} {x : Except ε α} {a : α} : x = .ok a ↔ x.toOption = some a := by
  cases x <;> simp [Except.toOption]

theorem map_eq_ok_iff {ε α β : Type} {f : α → β} {x : Except ε α} {b : β} :
    x.map f = .ok b ↔ ∃ a, x = .ok a ∧ f a = b := by
  cases x <;> simp [Except.map]

theorem text_eq_ok_iff {s : String} : text mode v.toDraft = .ok s ↔ v = .string s := by
  cases v <;> simp [text, toDraft]

theorem flag_eq_ok_iff {b : Bool} : flag mode v.toDraft = .ok b ↔ v = .bool b := by
  cases v <;> simp [flag, toDraft]

theorem freeMap_eq_ok_iff {ms : Members} :
    freeMap mode v.toDraft = .ok ms ↔ ∃ ns, v = .object ns ∧ ms = settledMembers [] ns := by
  cases v with
  | object ns =>
    have hs := settle_toDraft (.object ns)
    rw [toDraft, settled] at hs
    simp [freeMap, toDraft, hs, eq_comm]
  | _ => simp [freeMap, toDraft]

/-- Null may stand where a value may be missing. -/
theorem optional_eq_ok_iff {α : Type} {decode : Decoder α} {a : Option α} :
    optional decode mode v.toDraft = .ok a ↔
      (v = .null ∧ a = none) ∨ (v ≠ .null ∧ ∃ b, decode mode v.toDraft = .ok b ∧ some b = a) := by
  cases v with
  | null => simp [optional, toDraft, eq_comm]
  | _ =>
    simp only [ne_eq, reduceCtorEq, false_and, not_false_eq_true, true_and, false_or]
    exact map_eq_ok_iff

theorem orDefault_eq_ok_iff {α : Type} {decode : Decoder α} {default a : α} :
    orDefault decode default mode v.toDraft = .ok a ↔
      (v = .null ∧ a = default) ∨ (v ≠ .null ∧ decode mode v.toDraft = .ok a) := by
  unfold orDefault
  rw [map_eq_ok_iff]
  simp only [optional_eq_ok_iff]
  constructor
  · rintro ⟨b, ⟨hv, rfl⟩ | ⟨hv, c, hc, rfl⟩, rfl⟩
    · exact .inl ⟨hv, rfl⟩
    · exact .inr ⟨hv, hc⟩
  · rintro (⟨hv, rfl⟩ | ⟨hv, ha⟩)
    · exact ⟨none, .inl ⟨hv, rfl⟩, rfl⟩
    · exact ⟨some a, .inr ⟨hv, a, ha, rfl⟩, rfl⟩

/-! ## Members by name -/

namespace Members

/-- No name stands twice. -/
def Distinct (ms : Members) : Prop := (ms.map (·.1)).Nodup

theorem Ascending.distinct {ms : Members} (h : ms.Ascending) : ms.Distinct :=
  List.pairwise_map.mpr (h.imp fun hlt => hlt.ne)

theorem lookup_eq_some_iff_mem {ms : Members} (h : ms.Distinct) {k : String} :
    ms.lookup k = some v ↔ (k, v) ∈ ms := by
  refine ⟨mem_of_lookup, fun hm => ?_⟩
  induction ms with
  | nil => cases hm
  | cons m ms ih =>
    obtain ⟨n, w⟩ := m
    obtain ⟨hn, hms⟩ := List.nodup_cons.mp h
    rw [lookup_cons]
    rcases List.mem_cons.mp hm with he | hm
    · cases he
      exact if_pos rfl
    · have hne : k ≠ n := fun hk => hn (List.mem_map.mpr ⟨(k, v), hm, hk⟩)
      rw [if_neg hne]
      exact ih hms hm

end Members

/-! ## Records -/

namespace Shape

variable {σ : Type}

/-- What a member makes of the record under way: it is set if it is a field, and nothing is left if it does
  not fit. -/
def put (shape : Shape σ) (r : Option σ) (m : String × Json) : Option σ :=
  match shape.fields.find? (·.name == m.1) with
  | some f => r.bind fun r => (f.set .buffered m.2.toDraft r).toOption
  | none => r

/-- What a field makes of the record under way, looked up among members. -/
def fillField (o : Members) (r : Option σ) (f : Field σ) : Option σ :=
  match o.lookup f.name with
  | some v => r.bind fun r => (f.set .buffered v.toDraft r).toOption
  | none => if f.need == .always then none else r

/-- The record made by looking up the fields one after another. -/
def fill (shape : Shape σ) (o : Members) : Option σ :=
  shape.fields.foldl (fillField o) (some shape.blank)

/-- Fields of different names, of which it does not matter which is set first. -/
def Apart (f g : Field σ) : Prop :=
  f.name ≠ g.name ∧ ∀ d d' r,
    ((f.set .buffered d r).toOption.bind fun r => (g.set .buffered d' r).toOption) =
      (g.set .buffered d' r).toOption.bind fun r => (f.set .buffered d r).toOption

instance : Std.Symm (@Apart σ) := ⟨fun _ _ h => ⟨h.1.symm, fun d d' r => (h.2 d' d r).symm⟩⟩

def Independent (shape : Shape σ) : Prop := shape.fields.Pairwise Apart

variable {shape : Shape σ} {o : Members}

theorem foldl_put_none (ms : Members) : ms.foldl shape.put none = none := by
  induction ms with
  | nil => rfl
  | cons m ms ih =>
    have hm : shape.put none m = none := by
      unfold put
      split <;> rfl
    rw [List.foldl_cons, hm, ih]

theorem foldl_fillField_none (fs : List (Field σ)) : fs.foldl (fillField o) none = none := by
  induction fs with
  | nil => rfl
  | cons f fs ih =>
    have hf : fillField o none f = none := by
      unfold fillField
      split
      · rfl
      · split <;> rfl
    rw [List.foldl_cons, hf, ih]

theorem find?_name {fs : List (Field σ)} (h : fs.Pairwise (·.name ≠ ·.name)) {f : Field σ}
    (hf : f ∈ fs) : fs.find? (·.name == f.name) = some f := by
  induction fs with
  | nil => cases hf
  | cons g fs ih =>
    obtain ⟨hg, hfs⟩ := List.pairwise_cons.mp h
    rcases List.mem_cons.mp hf with rfl | hf
    · exact List.find?_cons_of_pos (beq_self_eq_true _)
    · rw [List.find?_cons_of_neg (by simpa using hg f hf)]
      exact ih hfs hf

theorem Independent.names (h : shape.Independent) : shape.fields.Pairwise (·.name ≠ ·.name) :=
  h.imp And.left

theorem field_of_find? {n : String} {f : Field σ} (h : shape.fields.find? (·.name == n) = some f) :
    f ∈ shape.fields ∧ f.name = n :=
  ⟨List.mem_of_find?_eq_some h, by simpa using List.find?_some h⟩

/-- Two members of different names may change places. -/
theorem put_comm (h : shape.Independent) {m n : String × Json} (hne : m.1 ≠ n.1) (r : Option σ) :
    shape.put (shape.put r m) n = shape.put (shape.put r n) m := by
  cases r with
  | none => exact (foldl_put_none [m, n]).trans (foldl_put_none [n, m]).symm
  | some r =>
    unfold put
    split
    · next g hg =>
      split
      · next f hf =>
        obtain ⟨hf, hfn⟩ := field_of_find? hf
        obtain ⟨hg, hgn⟩ := field_of_find? hg
        have hfg : f ≠ g := by
          rintro rfl
          exact hne (hfn.symm.trans hgn)
        exact (h.forall hf hg hfg).2 m.2.toDraft n.2.toDraft r
      · rfl
    · rfl

/-- The members that are fields, in the order of the fields. -/
def given (shape : Shape σ) (o : Members) : Members :=
  shape.fields.filterMap fun f => (o.lookup f.name).map (f.name, ·)

theorem mem_given (h : shape.Independent) (ho : o.Distinct) {m : String × Json} :
    m ∈ shape.given o ↔ m ∈ o ∧ (shape.fields.find? (·.name == m.1)).isSome := by
  unfold given
  rw [List.mem_filterMap]
  constructor
  · rintro ⟨f, hf, hm⟩
    obtain ⟨v, hv, rfl⟩ := Option.map_eq_some_iff.mp hm
    exact ⟨Members.mem_of_lookup hv, by rw [find?_name h.names hf]; rfl⟩
  · rintro ⟨hm, hfind⟩
    obtain ⟨f, hf⟩ := Option.isSome_iff_exists.mp hfind
    obtain ⟨hf, hn⟩ := field_of_find? hf
    exact ⟨f, hf, by rw [hn, (Members.lookup_eq_some_iff_mem ho).mpr hm]; rfl⟩

theorem nodup_given (h : shape.Independent) : (shape.given o).Nodup := by
  refine List.pairwise_filterMap.mpr (h.names.imp ?_)
  intro f g hfg m hm n hn
  obtain ⟨v, -, rfl⟩ := Option.map_eq_some_iff.mp hm
  obtain ⟨w, -, rfl⟩ := Option.map_eq_some_iff.mp hn
  exact fun he => hfg (Prod.mk.inj he).1

theorem foldl_put_eq (h : shape.Independent) (ho : o.Distinct) (r : Option σ) :
    o.foldl shape.put r = (shape.given o).foldl shape.put r := by
  have hskip : o.foldl shape.put r =
      (o.filter fun m => (shape.fields.find? (·.name == m.1)).isSome).foldl shape.put r := by
    rw [List.foldl_filter]
    congr
    funext r m
    split
    · rfl
    · next hnone =>
      unfold put
      rw [Option.not_isSome_iff_eq_none.mp hnone]
  have hperm : (o.filter fun m => (shape.fields.find? (·.name == m.1)).isSome).Perm (shape.given o) := by
    refine (List.perm_ext_iff_of_nodup (ho.of_map.filter _) (nodup_given h)).mpr fun m => ?_
    rw [List.mem_filter, mem_given h ho]
  rw [hskip]
  refine hperm.foldl_eq' ?_ r
  intro m hm n hn r
  by_cases he : m = n
  · rw [he]
  · refine put_comm h ?_ r
    intro hname
    have hm := (Members.lookup_eq_some_iff_mem ho).mpr (List.mem_of_mem_filter hm)
    have hn := (Members.lookup_eq_some_iff_mem ho).mpr (List.mem_of_mem_filter hn)
    rw [hname, hn] at hm
    exact he (Prod.ext hname (Option.some.inj hm).symm)

/-- Fields that are looked up are set if none is missing. -/
theorem foldl_fillField (h : shape.Independent) {fs : List (Field σ)} (hfs : ∀ f ∈ fs, f ∈ shape.fields)
    (r : Option σ) : fs.foldl (fillField o) r =
      if fs.all (fun f => f.need != .always || (o.lookup f.name).isSome) then
        (fs.filterMap fun f => (o.lookup f.name).map (f.name, ·)).foldl shape.put r
      else none := by
  induction fs generalizing r with
  | nil => rfl
  | cons f fs ih =>
    obtain ⟨hf, hfs⟩ := List.forall_mem_cons.mp hfs
    rw [List.foldl_cons]
    cases hl : o.lookup f.name with
    | some v =>
      have hput : fillField o r f = shape.put r (f.name, v) := by
        unfold fillField put
        rw [hl, find?_name h.names hf]
      rw [ih hfs, hput, List.all_cons, hl, Option.isSome_some, Bool.or_true, Bool.true_and,
        List.filterMap_cons_some (by rw [hl]; rfl), List.foldl_cons]
    | none =>
      have hfill : fillField o r f = if f.need == .always then none else r := by
        unfold fillField
        rw [hl]
      rw [hfill]
      split
      · next hn => rw [foldl_fillField_none, if_neg (by simp [hl, eq_of_beq hn])]
      · next hn =>
        rw [ih hfs, List.all_cons, hl, bne, Bool.eq_false_iff.mpr hn, Bool.not_false, Bool.true_or,
          Bool.true_and, List.filterMap_cons_none (by rw [hl]; rfl)]

theorem setMembers_toOption (found : List String) (r : σ) (ho : o.Distinct)
    (hf : ∀ m ∈ o, m.1 ∉ found) :
    (shape.setMembers .buffered found r (memberDrafts o)).toOption.map (·.2) =
      o.foldl shape.put (some r) := by
  induction o generalizing found r with
  | nil => rfl
  | cons m o ih =>
    obtain ⟨n, v⟩ := m
    obtain ⟨hn, ho⟩ := List.nodup_cons.mp ho
    obtain ⟨hm, hf⟩ := List.forall_mem_cons.mp hf
    rw [memberDrafts, setMembers, List.foldl_cons, put]
    split
    · next hnone =>
      rw [if_pos v.orderly_toDraft, hnone]
      exact ih found r ho hf
    · next f hfield =>
      rw [if_neg (by simpa using hm), hfield]
      split
      · next r' hset =>
        have hf' : ∀ m ∈ o, m.1 ∉ n :: found := by
          intro m hm'
          rw [List.mem_cons, not_or]
          exact ⟨fun he => hn (he ▸ List.mem_map.mpr ⟨m, hm', rfl⟩), hf m hm'⟩
        rw [ih (n :: found) r' ho hf']
        simp [hset, Except.toOption]
      · next e hset =>
        simp [hset, Except.toOption, foldl_put_none]

theorem mem_found {found found' : List String} {r r' : σ}
    (h : shape.setMembers .buffered found r (memberDrafts o) = .ok (found', r')) {f : Field σ}
    (hf : f ∈ shape.fields) : f.name ∈ found' ↔ f.name ∈ found ∨ (o.lookup f.name).isSome := by
  induction o generalizing found r with
  | nil =>
    cases h
    simp
  | cons m o ih =>
    obtain ⟨n, v⟩ := m
    rw [memberDrafts, setMembers] at h
    rw [Members.lookup_cons]
    split at h
    · next hnone =>
      rw [if_pos v.orderly_toDraft] at h
      have hne : f.name ≠ n := by
        intro he
        have := List.find?_eq_none.mp hnone f hf
        simp [he] at this
      rw [if_neg hne]
      exact ih h
    · split at h
      · cases h
      · split at h
        · rw [ih h, List.mem_cons]
          by_cases he : f.name = n <;> simp [he]
        · cases h

theorem decode_object (h : shape.Independent) (ho : o.Distinct) :
    (shape.decode .buffered (.object (memberDrafts o) true)).toOption = shape.fill o := by
  have hset : _ = o.foldl shape.put (some shape.blank) :=
    setMembers_toOption [] shape.blank ho fun _ _ => List.not_mem_nil
  rw [foldl_put_eq h ho] at hset
  rw [fill, foldl_fillField h fun _ hf => hf, ← given, ← hset]
  have hdecode : shape.decode .buffered (.object (memberDrafts o) true) =
    shape.ofMembers .buffered (memberDrafts o) true := rfl
  rw [hdecode, ofMembers]
  cases hm : shape.setMembers .buffered [] shape.blank (memberDrafts o) with
  | error e => simp [Except.toOption]
  | ok p =>
    obtain ⟨found, r⟩ := p
    have hfound : ∀ f ∈ shape.fields, found.contains f.name = (o.lookup f.name).isSome := by
      intro f hf
      have hiff := mem_found hm hf
      rw [Bool.eq_iff_iff, List.contains_iff_mem, hiff]
      exact or_iff_right List.not_mem_nil
    have hall : shape.fields.all (fun f => f.need != .always || (o.lookup f.name).isSome) =
        (shape.fields.find? fun f => f.need == .always && !found.contains f.name).isNone := by
      rw [Bool.eq_iff_iff, List.all_eq_true, Option.isNone_iff_eq_none, List.find?_eq_none]
      refine forall₂_congr fun f hf => ?_
      rw [hfound f hf]
      cases (o.lookup f.name).isSome <;> simp
    rw [hall]
    simp only [Bool.not_true, Bool.false_eq_true, if_false]
    cases shape.fields.find? fun f => f.need == .always && !found.contains f.name with
    | some f => rfl
    | none => rfl

/-! What one field does, told for fields that put in a place what a decoder reads. -/

theorem Apart.of {α β : Type} {m n : String} {need need' : Need} {decode : Decoder α}
    {decode' : Decoder β} {place : α → σ → σ} {place' : β → σ → σ} (hn : m ≠ n)
    (h : ∀ a b r, place' b (place a r) = place a (place' b r)) :
    Apart (.of m need decode place) (.of n need' decode' place') := by
  refine ⟨hn, fun d d' r => ?_⟩
  simp only [Field.of]
  cases decode .buffered d <;> cases decode' .buffered d' <;> simp [Except.map, Except.toOption, h]

variable {α : Type} {name : String} {decode : Decoder α} {place : α → σ → σ} {x : Option σ} {s : σ}

theorem fillField_some {need : Need} {r : σ} (hl : o.lookup name = some v) :
    fillField o (some r) (.of name need decode place) = some s ↔
      ∃ a, decode .buffered v.toDraft = .ok a ∧ s = place a r := by
  simp only [fillField, Field.of, hl, Option.bind_some]
  cases decode .buffered v.toDraft <;> simp [Except.map, Except.toOption, eq_comm]

theorem fillField_isSome {need : Need} (h : fillField o x (.of name need decode place) = some s) :
    ∃ r, x = some r := by
  cases x with
  | none => cases (foldl_fillField_none [_]).symm.trans h
  | some r => exact ⟨r, rfl⟩

theorem fillField_always :
    fillField o x (.of name .always decode place) = some s ↔
      ∃ r, x = some r ∧ ∃ v a, o.lookup name = some v ∧ decode .buffered v.toDraft = .ok a ∧
        s = place a r := by
  constructor
  · intro h
    obtain ⟨r, rfl⟩ := fillField_isSome h
    cases hl : o.lookup name with
    | none => simp [fillField, Field.of, hl] at h
    | some v =>
      obtain ⟨a, ha, hs⟩ := (fillField_some hl).mp h
      exact ⟨r, rfl, v, a, rfl, ha, hs⟩
  · rintro ⟨r, rfl, v, a, hl, ha, hs⟩
    exact (fillField_some hl).mpr ⟨a, ha, hs⟩

/-- A field leaves another as it was before. -/
theorem fillField_unset {need : Need} {unset : σ → σ} (hc : ∀ a r, unset (place a r) = place a (unset r))
    (hx : ∀ r, x = some r → unset r = r) :
    ∀ r, fillField o x (.of name need decode place) = some r → unset r = r := by
  intro s h
  obtain ⟨r, rfl⟩ := fillField_isSome h
  cases hl : o.lookup name with
  | none =>
    have hs : ¬ need = .always ∧ r = s := by simpa [fillField, Field.of, hl] using h
    exact hs.2 ▸ hx r rfl
  | some v =>
    obtain ⟨a, -, rfl⟩ := (fillField_some hl).mp h
    rw [hc, hx r rfl]

/-- A field with a default, which it also takes for null, if the record has the default before it is set. -/
theorem fillField_never {default : α} {P : Json → α → Prop}
    (hd : ∀ v a, decode .buffered v.toDraft = .ok a ↔ (v = .null ∧ a = default) ∨ (v ≠ .null ∧ P v a))
    (hx : ∀ r, x = some r → place default r = r) :
    fillField o x (.of name .never decode place) = some s ↔
      ∃ r a, x = some r ∧ s = place a r ∧
        ((∃ v, o.lookup name = some v ∧ v ≠ .null ∧ P v a) ∨
          ((o.lookup name = none ∨ o.lookup name = some .null) ∧ a = default)) := by
  constructor
  · intro h
    obtain ⟨r, rfl⟩ := fillField_isSome h
    cases hl : o.lookup name with
    | none =>
      have hs : r = s := by simpa [fillField, Field.of, hl] using h
      exact ⟨r, default, rfl, hs.symm.trans (hx r rfl).symm, .inr ⟨.inl rfl, rfl⟩⟩
    | some v =>
      obtain ⟨a, ha, hs⟩ := (fillField_some hl).mp h
      refine ⟨r, a, rfl, hs, ?_⟩
      rcases (hd v a).mp ha with ⟨rfl, rfl⟩ | ⟨hv, hp⟩
      · exact .inr ⟨.inr rfl, rfl⟩
      · exact .inl ⟨v, rfl, hv, hp⟩
  · rintro ⟨r, a, rfl, rfl, ⟨v, hl, hv⟩ | ⟨hl | hl, rfl⟩⟩
    · exact (fillField_some hl).mpr ⟨a, (hd v a).mpr (.inr hv), rfl⟩
    · rw [hx r rfl]
      simp [fillField, Field.of, hl]
    · exact (fillField_some hl).mpr ⟨a, (hd .null a).mpr (.inl ⟨rfl, rfl⟩), rfl⟩

/-- A record that is one text. -/
theorem decode_text {title : String} {blank : σ} {place : String → σ} (ho : o.Distinct) :
    Shape.decode ⟨title, blank, [.of name .always text fun t _ => place t]⟩ .buffered
        (.object (memberDrafts o) true) = .ok s ↔
      ∃ t, o.lookup name = some (.string t) ∧ s = place t := by
  have hi : Independent ⟨title, blank, [.of name .always text fun t _ => place t]⟩ :=
    List.pairwise_singleton Apart _
  rw [ok_iff_toOption, decode_object hi ho]
  simp only [fill, List.foldl_cons, List.foldl_nil, fillField_always, text_eq_ok_iff]
  constructor
  · rintro ⟨_, _, _, t, ht, rfl, hs⟩
    exact ⟨t, ht, hs⟩
  · rintro ⟨t, ht, hs⟩
    exact ⟨_, rfl, _, t, ht, rfl, hs⟩

/-- What no field upsets holds of a record that is read from items. -/
theorem setItems_induct {P : σ → Prop} {mode : Mode} {closed : Bool} {vs : List Json}
    {fs : List (Field σ)}
    (hset : ∀ f ∈ fs, ∀ v ∈ vs, ∀ r r', P r → f.set mode v.toDraft r = .ok r' → P r')
    {i : Nat} {r r' : σ} (hr : P r) (h : shape.setItems mode closed r i fs (itemDrafts vs) = .ok r') :
    P r' := by
  induction fs generalizing vs i r with
  | nil =>
    cases vs with
    | nil =>
      simp only [itemDrafts, setItems] at h
      split at h <;> cases h
      exact hr
    | cons v vs => cases h
  | cons f fs ih =>
    obtain ⟨hf, hfs⟩ := List.forall_mem_cons.mp hset
    cases vs with
    | nil =>
      simp only [itemDrafts, setItems] at h
      split at h
      · cases h
      · split at h
        · exact @ih [] (fun f hf v hv => absurd hv List.not_mem_nil) _ _ hr h
        · cases h
    | cons v vs =>
      simp only [itemDrafts, setItems] at h
      split at h
      · next r₁ hr₁ =>
        have hrest := fun f hf v hv => hfs f hf v (List.mem_cons_of_mem _ hv)
        exact ih hrest (hf v List.mem_cons_self r r₁ hr hr₁) h
      · cases h

end Shape

/-! ## Choices between records -/

variable {α : Type}

/-- The members beside the tag. -/
def untagged (o : Members) : Members := o.filter fun m => m.1 != tagName

theorem lookup_untagged {k : String} (hk : k ≠ tagName) (o : Members) :
    (untagged o).lookup k = o.lookup k := by
  induction o with
  | nil => rfl
  | cons m o ih =>
    obtain ⟨n, v⟩ := m
    unfold untagged at ih ⊢
    rw [List.filter_cons, Members.lookup_cons]
    split
    · rw [Members.lookup_cons, ih]
    · next hn =>
      have hn : n = tagName := by simpa using hn
      rw [ih, if_neg (hn ▸ hk)]

theorem Members.Distinct.untagged {o : Members} (h : o.Distinct) : (untagged o).Distinct :=
  h.sublist (List.filter_sublist.map _)

theorem splitTag_of_untagged {choices : List (String × α)} {found : Option α} {o : Members}
    (h : ∀ m ∈ o, m.1 ≠ tagName) :
    splitTag choices found (memberDrafts o) = .ok (found, memberDrafts o) := by
  induction o with
  | nil => rfl
  | cons m o ih =>
    obtain ⟨n, v⟩ := m
    obtain ⟨hn, ho⟩ := List.forall_mem_cons.mp h
    rw [memberDrafts, splitTag, if_neg (by simpa using hn), if_pos v.whole_toDraft, ih ho]
    rfl

/-- The tag is taken out of the members, wherever it stands. -/
theorem splitTag_object {choices : List (String × α)} {o : Members} (ho : o.Distinct) :
    splitTag choices none (memberDrafts o) =
      match o.lookup tagName with
      | none => .ok (none, memberDrafts o)
      | some v => (tag choices v.toDraft).map fun a => (some a, memberDrafts (untagged o)) := by
  induction o with
  | nil => rfl
  | cons m o ih =>
    obtain ⟨n, v⟩ := m
    obtain ⟨hn, hd⟩ := List.nodup_cons.mp ho
    rw [memberDrafts, splitTag, Members.lookup_cons]
    by_cases ht : n = tagName
    · have hrest : ∀ m ∈ o, m.1 ≠ tagName := by
        intro m hm he
        exact hn (List.mem_map.mpr ⟨m, hm, he.trans ht.symm⟩)
      have huntag : untagged ((n, v) :: o) = o := by
        unfold untagged
        rw [List.filter_cons_of_neg (by simpa using ht), List.filter_eq_self]
        simpa using hrest
      rw [if_pos (by simpa using ht), if_pos ht.symm, huntag]
      simp only [splitTag_of_untagged hrest, Option.isSome_none, Bool.false_eq_true, if_false]
      cases tag choices v.toDraft <;> rfl
    · have huntag : untagged ((n, v) :: o) = (n, v) :: untagged o :=
        List.filter_cons_of_pos (by simpa using ht)
      rw [if_neg (by simpa using ht), if_neg (Ne.symm ht), if_pos v.whole_toDraft, ih hd, huntag]
      cases o.lookup tagName with
      | none => rfl
      | some u => cases h : tag choices u.toDraft <;> simp [h, Except.map, memberDrafts]

theorem named_eq_ok_iff {choices : List (String × α)} {s : String} {a : α} :
    named choices s = .ok a ↔ choices.lookup s = some a := by
  unfold named
  cases choices.lookup s <;> simp

theorem tag_eq_ok_iff {choices : List (String × α)} {v : Json} {a : α} :
    tag choices v.toDraft = .ok a ↔ ∃ s, v = .string s ∧ choices.lookup s = some a := by
  cases v <;> simp [tag, toDraft, named_eq_ok_iff]

/-- A choice is made by the tag, and told by the members beside it. -/
theorem tagged_object {title : String} {choices : List (String × Decoder α)} {mode : Mode} {o : Members}
    (ho : o.Distinct) {a : α} :
    tagged title choices mode (.object (memberDrafts o) true) = .ok a ↔
      ∃ s decode, o.lookup tagName = some (.string s) ∧ choices.lookup s = some decode ∧
        decode .buffered (.object (memberDrafts (untagged o)) true) = .ok a := by
  have hsplit := @splitTag_object (Decoder α) choices o ho
  cases hl : o.lookup tagName with
  | none =>
    rw [hl] at hsplit
    simp [tagged, hsplit]
  | some v =>
    cases ht : tag choices v.toDraft with
    | error e =>
      have hno : ∀ s, v = .string s → choices.lookup s = none := by
        intro s hv
        refine Option.eq_none_iff_forall_ne_some.mpr fun decode hs => ?_
        rw [tag_eq_ok_iff.mpr ⟨s, hv, hs⟩] at ht
        cases ht
      rw [hl] at hsplit
      simp only [ht, Except.map] at hsplit
      simp only [tagged, hsplit, reduceCtorEq, Option.some.injEq, false_iff]
      rintro ⟨s, decode, hv, hs, -⟩
      rw [hno s hv] at hs
      cases hs
    | ok decode =>
      obtain ⟨s, rfl, hs⟩ := tag_eq_ok_iff.mp ht
      rw [hl] at hsplit
      simp only [ht, Except.map] at hsplit
      simp [tagged, hsplit, hs]

/-- In an array the tag comes first. -/
theorem tagged_array {title : String} {choices : List (String × Decoder α)} {mode : Mode}
    {items : List Json} {a : α} :
    tagged title choices mode (.array (itemDrafts items) true) = .ok a ↔
      ∃ s rest decode, items = .string s :: rest ∧ choices.lookup s = some decode ∧
        decode .buffered (.array (itemDrafts rest) true) = .ok a := by
  have hwhole : ∀ items : List Json, (itemDrafts items).all Draft.whole = true := by
    intro items
    induction items with
    | nil => rfl
    | cons v items ih => rw [itemDrafts, List.all_cons, v.whole_toDraft, ih, Bool.and_self]
  cases items with
  | nil => simp [tagged, itemDrafts]
  | cons v rest =>
    simp only [tagged, itemDrafts, hwhole, Bool.and_self, if_true]
    constructor
    · intro h
      split at h
      · cases h
      · next decode ht =>
        obtain ⟨s, rfl, hs⟩ := tag_eq_ok_iff.mp ht
        exact ⟨s, rest, decode, rfl, hs, h⟩
    · rintro ⟨s, rest, decode, he, hs, h⟩
      cases he
      have ht := tag_eq_ok_iff.mpr ⟨s, rfl, hs⟩
      simp only [ht]
      exact h

end Converse.Json
