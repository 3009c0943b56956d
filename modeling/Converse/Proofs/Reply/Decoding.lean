import Converse.Proofs.Json.Reading
import Converse.Proofs.Json.Records
import Converse.Reply.Frame

/-
  Which frames carry an event, and which event.

  `Told` says what an object must say of an event, field by field. `event_eq_ok_iff` is the result: a frame
  whose data is an object carries just the event it is told, wherever the members stand, however often they
  are repeated, and whatever stands beside them.
-/

namespace Converse

/-! ## Kinds of error -/

/-- A code that is known is not kept as if it were unknown. -/
def ErrorKind.Canonical (k : ErrorKind) : Prop := ∀ code, k = .other code → code ∉ known.map ErrorKind.code

theorem ErrorKind.canonical_ofCode (code : String) : (ofCode code).Canonical := by
  intro c h hc
  obtain ⟨k, hk, rfl⟩ := List.mem_map.mp hc
  have hcode : code = k.code := by
    rw [← code_ofCode code, h]
    rfl
  rw [hcode, ofCode_code_of_known hk] at h
  rw [h] at hk
  simp [known] at hk

theorem ErrorKind.Canonical.ofCode_code {k : ErrorKind} (h : k.Canonical) : ofCode k.code = k := by
  cases k with
  | other code =>
    unfold ofCode
    rw [List.find?_eq_none.mpr]
    · rfl
    · intro k hk he
      exact h code rfl (List.mem_map.mpr ⟨k, hk, eq_of_beq he⟩)
  | _ => rfl

namespace Reply

open Json (Members)

/-! ## What is told -/

/-- A value is left out, or null stands in its place. -/
def Omitted (v : Option Json) : Prop := v = none ∨ v = some .null

/-- The kind of the event: the tag, or else the name of the frame if it was given one. -/
def Frame.kind (name : String) (o : String → Option Json) : Option Json :=
  match o "type" with
  | some v => some v
  | none => if name = "" ∨ name = "message" then none else some (.string name)

/-- What must stand under each name for the event to be told. -/
def Event.Told (o : String → Option Json) : Event → Prop
  | .start c => o "conversation_id" = some (.string c)
  | .delta s => o "content" = some (.string s)
  | .toolStart t args => o "tool_name" = some (.string t) ∧
    (o "arguments" = some (.object args) ∨ (Omitted (o "arguments") ∧ args = []))
  | .toolEnd t ok summary => o "tool_name" = some (.string t) ∧ o "success" = some (.bool ok) ∧
    ((∃ s, o "result_summary" = some (.string s) ∧ summary = some s) ∨
      (Omitted (o "result_summary") ∧ summary = none))
  | .stop => True
  | .error m k => o "error" = some (.string m) ∧
    ((o "code" = some (.string k.code) ∧ k.Canonical) ∨ (Omitted (o "code") ∧ k = .unexpected))

/-! ## One kind of event -/

namespace Event

open Json Json.Shape

variable {o : Members} {e : Event}

theorem toolStartShape_independent : toolStartShape.Independent :=
  List.pairwise_pair.mpr (.of (by decide) fun _ _ _ => rfl)

theorem toolEndShape_independent : toolEndShape.Independent := by
  refine List.pairwise_cons.mpr ⟨?_, List.pairwise_pair.mpr (.of (by decide) fun _ _ _ => rfl)⟩
  refine List.forall_mem_cons.mpr ⟨.of (by decide) fun _ _ _ => rfl, List.forall_mem_singleton.mpr ?_⟩
  exact .of (by decide) fun _ _ _ => rfl

theorem errorShape_independent : errorShape.Independent :=
  List.pairwise_pair.mpr (.of (by decide) fun _ _ _ => rfl)

theorem toolStart_decode (ho : o.Distinct) (hv : ∀ m ∈ o, m.2.Sorted) {t : String} {args : Members} :
    toolStartShape.decode .buffered (.object (memberDrafts o) true) = .ok (t, args) ↔
      (Event.toolStart t args).Told (o.lookup ·) := by
  have hsettled : ∀ ns, o.lookup "arguments" = some (.object ns) → settledMembers [] ns = ns := by
    intro ns hns
    exact Json.object.inj (hv _ (Members.mem_of_lookup hns)).settled
  rw [ok_iff_toOption, decode_object toolStartShape_independent ho]
  simp only [fill, toolStartShape, List.foldl_cons, List.foldl_nil]
  refine (fillField_never (fun v args => orDefault_eq_ok_iff) ?_).trans ?_
  · refine fillField_unset (fun _ _ => rfl) fun r hr => ?_
    cases hr
    rfl
  simp only [fillField_always, text_eq_ok_iff, freeMap_eq_ok_iff]
  constructor
  · rintro ⟨_, args, ⟨_, hblank, _, t, ht, rfl, rfl⟩, he, ha⟩
    cases hblank
    cases he
    refine ⟨ht, ha.imp_left ?_⟩
    rintro ⟨_, hl, -, ns, rfl, rfl⟩
    exact hl.trans (by rw [hsettled ns hl])
  · rintro ⟨ht, ha⟩
    refine ⟨_, args, ⟨_, rfl, _, t, ht, rfl, rfl⟩, rfl, ha.imp_left fun hl => ?_⟩
    exact ⟨_, hl, Json.noConfusion, args, rfl, (hsettled args hl).symm⟩

theorem toolEnd_decode (ho : o.Distinct) {t : String} {ok : Bool} {summary : Option String} :
    toolEndShape.decode .buffered (.object (memberDrafts o) true) = .ok (t, ok, summary) ↔
      (Event.toolEnd t ok summary).Told (o.lookup ·) := by
  rw [ok_iff_toOption, decode_object toolEndShape_independent ho]
  simp only [fill, toolEndShape, List.foldl_cons, List.foldl_nil]
  refine (fillField_never (fun v summary => optional_eq_ok_iff) ?_).trans ?_
  · refine fillField_unset (fun _ _ => rfl) (fillField_unset (fun _ _ => rfl) fun r hr => ?_)
    cases hr
    rfl
  simp only [fillField_always, text_eq_ok_iff, flag_eq_ok_iff]
  constructor
  · rintro ⟨_, summary, ⟨_, ⟨_, hblank, _, t, ht, rfl, rfl⟩, _, ok, hok, rfl, rfl⟩, he, hs⟩
    cases hblank
    cases he
    refine ⟨ht, hok, hs.imp_left ?_⟩
    rintro ⟨_, hl, -, s, rfl, rfl⟩
    exact ⟨s, hl, rfl⟩
  · rintro ⟨ht, hok, hs⟩
    refine ⟨_, summary, ⟨_, ⟨_, rfl, _, t, ht, rfl, rfl⟩, _, ok, hok, rfl, rfl⟩, rfl, hs.imp_left ?_⟩
    rintro ⟨s, hl, rfl⟩
    exact ⟨_, hl, Json.noConfusion, s, rfl, rfl⟩

theorem kind_eq_ok_iff {mode : Mode} {v : Json} {k : ErrorKind} :
    ErrorKind.decode mode v.toDraft = .ok k ↔ v = .string k.code ∧ k.Canonical := by
  unfold ErrorKind.decode
  rw [map_eq_ok_iff]
  simp only [text_eq_ok_iff]
  constructor
  · rintro ⟨s, rfl, rfl⟩
    exact ⟨by rw [ErrorKind.code_ofCode], ErrorKind.canonical_ofCode s⟩
  · rintro ⟨rfl, hk⟩
    exact ⟨k.code, rfl, hk.ofCode_code⟩

theorem error_decode (ho : o.Distinct) {m : String} {k : ErrorKind} :
    errorShape.decode .buffered (.object (memberDrafts o) true) = .ok (m, k) ↔
      (Event.error m k).Told (o.lookup ·) := by
  rw [ok_iff_toOption, decode_object errorShape_independent ho]
  simp only [fill, errorShape, List.foldl_cons, List.foldl_nil]
  refine (fillField_never (fun v k => orDefault_eq_ok_iff) ?_).trans ?_
  · refine fillField_unset (fun _ _ => rfl) fun r hr => ?_
    cases hr
    rfl
  simp only [fillField_always, text_eq_ok_iff, kind_eq_ok_iff]
  constructor
  · rintro ⟨_, k, ⟨_, hblank, _, m, hm, rfl, rfl⟩, he, hk⟩
    cases hblank
    cases he
    refine ⟨hm, hk.imp_left ?_⟩
    rintro ⟨_, hl, -, rfl, hc⟩
    exact ⟨hl, hc⟩
  · rintro ⟨hm, hk⟩
    refine ⟨_, k, ⟨_, rfl, _, m, hm, rfl, rfl⟩, rfl, hk.imp_left ?_⟩
    rintro ⟨hl, hc⟩
    exact ⟨_, hl, Json.noConfusion, rfl, hc⟩

/-! ## All kinds -/

/-- The tag is not looked at when the fields are. -/
theorem told_congr {o o' : String → Option Json} (h : ∀ k, k ≠ tagName → o k = o' k) (e : Event) :
    e.Told o ↔ e.Told o' := by
  cases e with
  | start => rw [Told, Told, h "conversation_id" (by decide)]
  | delta => rw [Told, Told, h "content" (by decide)]
  | toolStart => rw [Told, Told, h "tool_name" (by decide), h "arguments" (by decide)]
  | toolEnd =>
    rw [Told, Told, h "tool_name" (by decide), h "success" (by decide), h "result_summary" (by decide)]
  | stop => rfl
  | error => rw [Told, Told, h "error" (by decide), h "code" (by decide)]

theorem variant_cases {s : String} {decode : Json.Decoder Event} (h : variants.lookup s = some decode) :
    (s = "start" ∧ decode = startShape.decode) ∨ (s = "delta" ∧ decode = deltaShape.decode) ∨
    (s = "tool_start" ∧
      decode = fun mode d => (toolStartShape.decode mode d).map fun r => .toolStart r.1 r.2) ∨
    (s = "tool_end" ∧
      decode = fun mode d => (toolEndShape.decode mode d).map fun r => .toolEnd r.1 r.2.1 r.2.2) ∨
    (s = "end" ∧ decode = bare .stop) ∨
    (s = "error" ∧ decode = fun mode d => (errorShape.decode mode d).map fun r => .error r.1 r.2) := by
  obtain ⟨before, after, he, -⟩ := List.lookup_eq_some_iff.mp h
  have hmem : (s, decode) ∈ variants := he ▸ List.mem_append_right _ List.mem_cons_self
  simpa only [variants, List.mem_cons, List.not_mem_nil, or_false, Prod.mk.injEq] using hmem

/-- Each kind has its decoder, and no other event comes from it. -/
theorem variant_decode (ho : o.Distinct) (hv : ∀ m ∈ o, m.2.Sorted) {s : String}
    {decode : Json.Decoder Event} (h : variants.lookup s = some decode) :
    decode .buffered (.object (memberDrafts o) true) = .ok e ↔ s = e.name ∧ e.Told (o.lookup ·) := by
  rcases variant_cases h with ⟨rfl, rfl⟩ | ⟨rfl, rfl⟩ | ⟨rfl, rfl⟩ | ⟨rfl, rfl⟩ | ⟨rfl, rfl⟩ | ⟨rfl, rfl⟩
  · rw [startShape, decode_text ho]
    cases e <;> simp [name, Told]
  · rw [deltaShape, decode_text ho]
    cases e <;> simp [name, Told]
  · simp only [map_eq_ok_iff, Prod.exists, toolStart_decode ho hv]
    cases e <;> simp [name]
  · simp only [map_eq_ok_iff, Prod.exists, toolEnd_decode ho]
    cases e <;> simp [name]
  · cases e <;> simp [name, bare, Told]
  · simp only [map_eq_ok_iff, Prod.exists, error_decode ho]
    cases e <;> simp [name]

theorem variant_of_name (e : Event) : ∃ decode, variants.lookup e.name = some decode := by
  cases e <;> exact ⟨_, rfl⟩

theorem decode_eq_ok_iff (ho : o.Distinct) (hv : ∀ m ∈ o, m.2.Sorted) :
    decode.ofValue (.object o) = .ok e ↔
      o.lookup tagName = some (.string e.name) ∧ e.Told (o.lookup ·) := by
  have hv' : ∀ m ∈ untagged o, m.2.Sorted := fun m hm => hv m (List.mem_of_mem_filter hm)
  have htold : e.Told ((untagged o).lookup ·) ↔ e.Told (o.lookup ·) :=
    told_congr (fun k hk => lookup_untagged hk o) e
  rw [← htold]
  unfold Decoder.ofValue Event.decode
  rw [toDraft, tagged_object ho]
  constructor
  · rintro ⟨s, decode, hs, hd, he⟩
    obtain ⟨rfl, ht⟩ := (variant_decode ho.untagged hv' hd).mp he
    exact ⟨hs, ht⟩
  · rintro ⟨hs, ht⟩
    obtain ⟨decode, hd⟩ := variant_of_name e
    exact ⟨_, decode, hs, hd, (variant_decode ho.untagged hv' hd).mpr ⟨rfl, ht⟩⟩

end Event

/-! ## Whole frames -/

theorem Frame.kind_of_some {name : String} {o : String → Option Json} {v : Json} (h : o "type" = some v) :
    kind name o = some v := by
  rw [kind, h]

theorem Frame.kind_of_none {name : String} {o : String → Option Json} (h : o "type" = none) :
    kind name o = if name = "" ∨ name = "message" then none else some (.string name) := by
  rw [kind, h]

/-- The name of the frame is put among the members where it is wanted as a tag. -/
theorem withTag_object (name : String) {o : Members} (ho : o.Ascending) (hv : ∀ m ∈ o, m.2.Sorted) :
    ∃ o' : Members, Frame.withTag name (.object o) = .object o' ∧ o'.Ascending ∧ (∀ m ∈ o', m.2.Sorted) ∧
      o'.lookup Json.tagName = Frame.kind name (o.lookup ·) ∧
      ∀ k, k ≠ Json.tagName → o'.lookup k = o.lookup k := by
  cases hl : o.lookup Json.tagName with
  | some v =>
    have hkeep : Frame.withTag name (.object o) = .object o := if_neg (by rw [hl]; simp)
    exact ⟨o, hkeep, ho, hv, hl.trans (Frame.kind_of_some hl).symm, fun _ _ => rfl⟩
  | none =>
    by_cases hname : name = "" ∨ name = "message"
    · have hkeep : Frame.withTag name (.object o) = .object o := by
        refine if_neg ?_
        rcases hname with rfl | rfl <;> simp [Frame.defaultName]
      refine ⟨o, hkeep, ho, hv, ?_, fun _ _ => rfl⟩
      rw [hl, Frame.kind_of_none hl, if_pos hname]
    · have hput : Frame.withTag name (.object o) = .object (o.put Json.tagName (.string name)) := by
        refine if_pos ?_
        rw [hl]
        simpa [Frame.defaultName] using hname
      refine ⟨_, hput, ho.put _ _, ?_, ?_, ?_⟩
      · intro m hm
        rcases Members.mem_put hm with rfl | hm
        · exact .string name
        · exact hv m hm
      · rw [Members.lookup_put, if_pos rfl, Frame.kind_of_none hl, if_neg hname]
      · intro k hk
        rw [Members.lookup_put, if_neg hk]

/-- The frame carries the event that its object tells, if the object is known. -/
theorem event_of_object {name : String} {o : Members} (ho : o.Ascending) (hv : ∀ m ∈ o, m.2.Sorted)
    {e : Event} : Event.decode.ofValue (Frame.withTag name (.object o)) = .ok e ↔
      Frame.kind name (o.lookup ·) = some (.string e.name) ∧ e.Told (o.lookup ·) := by
  obtain ⟨o', he, ho', hv', hk, hf⟩ := withTag_object name ho hv
  rw [he, Event.decode_eq_ok_iff ho'.distinct hv', ← hk]
  exact and_congr_right' (Event.told_congr hf e)

/-- What the members of an object say of a name, the last word on it being what counts. -/
def said (ms : Members) (name : String) : Option Json := (ms.reverse.lookup name).map Json.settled

theorem lookup_settled (ms : Members) : ((Json.settledMembers [] ms).lookup ·) = said ms := by
  funext k
  rw [Json.lookup_settledMembers, List.lookup_nil, Option.or_none]
  rfl

theorem event_of_read {data : String} {ms : Members} (h : Json.read? data = some (Json.object ms).settled)
    (name : String) (e : Event) :
    Frame.event ⟨name, data⟩ = .ok e ↔
      Frame.kind name (said ms) = some (.string e.name) ∧ e.Told (said ms) := by
  cases Json.sorted_settled (.object ms) with
  | object ha hv =>
    rw [← lookup_settled, ← event_of_object ha hv]
    unfold Frame.event
    rw [h]
    rfl

/-- **A frame whose data is an object carries just the event it is told.** -/
theorem event_eq_ok_iff {data : String} {ms : Members} (h : Json.Writes data.toList (.object ms))
    (name : String) (e : Event) :
    Frame.event ⟨name, data⟩ = .ok e ↔
      Frame.kind name (said ms) = some (.string e.name) ∧ e.Told (said ms) :=
  event_of_read (Json.read?_eq_some_iff.mpr ⟨_, h, rfl⟩) name e

/-- The last word counts, and the name of the frame stands for the tag. -/
theorem event_eq_ok_iff_repeated :
    Frame.event
        { name := "tool_start"
          data := "\x7b \"arguments\":7, \"tool_name\" :null,\"x\":[],\"tool_name\":\"r\\u0065ad\""
            ++ ",\"arguments\":\x7b\"z\":2,\"a\":true,\"z\":3\x7d\x7d" } =
      .ok (.toolStart "read" [("a", .bool true), ("z", .integer 3)]) := by
  refine (@event_eq_ok_iff _ [("arguments", .integer 7), ("tool_name", .null), ("x", .array []),
    ("tool_name", .string "read"),
    ("arguments", .object [("z", .integer 2), ("a", .bool true), ("z", .integer 3)])] ?_ _ _).mpr ?_
  · exact Json.writes_iff.mpr rfl
  · exact ⟨rfl, rfl, .inl rfl⟩

end Reply

end Converse
