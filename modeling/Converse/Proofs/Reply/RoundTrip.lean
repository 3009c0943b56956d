import Converse.Proofs.Json.Writing
import Converse.Proofs.Reply.Decoding

/-
  Events that are written and read again.

  What an event is written as tells the event, whatever the frame is called. What a frame carries can be
  written: its error code is kept under the right name, and its arguments are sorted and lie no deeper than
  the data did, be the data an object or an array. `event_round_trip` puts both together.
-/

namespace Converse.Reply

open Json (Members)

namespace Event

/-- An error that is reported by a code of its own is not kept as if the code were unknown. -/
def Canonical : Event → Prop
  | .error _ k => k.Canonical
  | _ => True

/-- The arguments of a tool that starts. -/
def arguments : Event → Members
  | .toolStart _ args => args
  | _ => []

/-! ## Writing -/

variable {e : Event}

/-- What is written tells the event. -/
theorem told_toJson (hc : e.Canonical) (hs : (Json.object e.arguments).Sorted) (name : String) :
    Frame.kind name (said ((Json.tagName, .string e.name) :: e.fields)) = some (.string e.name) ∧
      e.Told (said ((Json.tagName, .string e.name) :: e.fields)) := by
  have hargs : ∀ args, Json.Sorted (.object args) → Json.settledMembers [] args = args :=
    fun args h => Json.object.inj h.settled
  cases e with
  | start c => exact ⟨rfl, rfl⟩
  | delta s => exact ⟨rfl, rfl⟩
  | toolStart t args => exact ⟨rfl, rfl, .inl (congrArg (some ∘ Json.object) (hargs args hs))⟩
  | toolEnd t ok summary =>
    cases summary with
    | none => exact ⟨rfl, rfl, rfl, .inr ⟨.inl rfl, rfl⟩⟩
    | some s => exact ⟨rfl, rfl, rfl, .inl ⟨s, rfl, rfl⟩⟩
  | stop => exact ⟨rfl, trivial⟩
  | error m k => exact ⟨rfl, rfl, .inl ⟨rfl, hc⟩⟩

theorem field_cases {m : String × Json} (h : m ∈ e.fields) :
    (∃ s, m.2 = .string s) ∨ (∃ b, m.2 = .bool b) ∨ m.2 = .object e.arguments := by
  cases e with
  | start | delta =>
    cases List.mem_singleton.mp h
    exact .inl ⟨_, rfl⟩
  | toolStart =>
    rcases List.mem_pair.mp h with rfl | rfl
    · exact .inl ⟨_, rfl⟩
    · exact .inr (.inr rfl)
  | toolEnd _ _ summary =>
    rcases List.mem_append.mp h with h | h
    · rcases List.mem_pair.mp h with rfl | rfl
      · exact .inl ⟨_, rfl⟩
      · exact .inr (.inl ⟨_, rfl⟩)
    · cases summary with
      | none => cases h
      | some s =>
        cases List.mem_singleton.mp h
        exact .inl ⟨_, rfl⟩
  | stop => cases h
  | error =>
    rcases List.mem_pair.mp h with rfl | rfl
    · exact .inl ⟨_, rfl⟩
    · exact .inl ⟨_, rfl⟩

theorem integral_toJson (h : (Json.object e.arguments).Integral) : e.toJson.Integral := by
  refine .object (List.forall_mem_cons.mpr ⟨.string _, fun m hm => ?_⟩)
  rcases field_cases hm with ⟨s, hs⟩ | ⟨b, hb⟩ | ha
  · exact hs ▸ .string s
  · exact hb ▸ .bool b
  · exact ha ▸ h

/-- The event is written no deeper than its arguments lie. -/
theorem depth_toJson_le {n : Nat} (h : (Json.object e.arguments).depth ≤ n) : e.toJson.depth ≤ n + 1 := by
  refine Nat.succ_le_succ (Json.membersDepth_le_iff.mpr (List.forall_mem_cons.mpr ⟨Nat.zero_le n, ?_⟩))
  intro m hm
  rcases field_cases hm with ⟨s, hs⟩ | ⟨b, hb⟩ | ha
  · exact hs ▸ Nat.zero_le n
  · exact hb ▸ Nat.zero_le n
  · exact ha ▸ h

theorem event_compact (hc : e.Canonical) (hs : (Json.object e.arguments).Sorted)
    (hi : (Json.object e.arguments).Integral) (hd : e.toJson.depth ≤ Json.maxDepth) (name : String) :
    Frame.event ⟨name, e.toJson.compact⟩ = .ok e :=
  (event_of_read (Json.read?_compact (integral_toJson hi) hd) name e).mpr (told_toJson hc hs name)

end Event

/-! ## Reading -/

/-- An event that can be written again: no code hidden, and the arguments sorted and at most `n` deep. -/
structure Event.Fit (n : Nat) (e : Event) : Prop where
  canonical : e.Canonical
  sorted : (Json.object e.arguments).Sorted
  depth : (Json.object e.arguments).depth ≤ n

namespace Event

open Json Json.Shape

variable {e : Event} {n : Nat}

theorem Fit.of_canonical (hn : 1 ≤ n) (hc : e.Canonical) (ha : e.arguments = []) : e.Fit n where
  canonical := hc
  sorted := ha ▸ .object .nil fun _ hm => nomatch hm
  depth := ha ▸ hn

/-- Arguments that are read are sorted, and no deeper than they were. -/
theorem fit_toolStart {t : String} {ns : Members} (hd : (Json.object ns).depth ≤ n) :
    (toolStart t (settledMembers [] ns)).Fit n where
  canonical := trivial
  sorted := sorted_settled (.object ns)
  depth := (depth_settled_le (.object ns)).trans hd

theorem fit_of_told {o : Members} (hn : 1 ≤ n) (hv : ∀ m ∈ o, m.2.Sorted)
    (hd : ∀ m ∈ o, m.2.depth ≤ n) (ht : e.Told (o.lookup ·)) : e.Fit n := by
  cases e with
  | toolStart t args =>
    obtain ⟨-, ha | ⟨-, rfl⟩⟩ := ht
    · have hm := Members.mem_of_lookup ha
      exact ⟨trivial, hv _ hm, hd _ hm⟩
    · exact .of_canonical hn trivial rfl
  | error m k =>
    refine .of_canonical hn ?_ rfl
    obtain ⟨-, ⟨-, hk⟩ | ⟨-, rfl⟩⟩ := ht
    · exact hk
    · exact ErrorKind.canonical_ofCode "INTERNAL_ERROR"
  | _ => exact .of_canonical hn trivial rfl

theorem set_of {α σ : Type} {name : String} {need : Need} {decode : Json.Decoder α} {place : α → σ → σ}
    {mode : Mode} {d : Draft} {r r' : σ} (h : (Field.of name need decode place).set mode d r = .ok r') :
    ∃ a, decode mode d = .ok a ∧ r' = place a r := by
  obtain ⟨a, ha, hr⟩ := map_eq_ok_iff.mp h
  exact ⟨a, ha, hr.symm⟩

variable {items : List Json}

theorem fit_textItems {title name : String} {place : String → Event} (hp : ∀ s, (place s).Fit n)
    (h : Shape.decode ⟨title, place "", [.of name .always text fun s _ => place s]⟩ .buffered
      (.array (itemDrafts items) true) = .ok e) : e.Fit n := by
  refine setItems_induct (List.forall_mem_singleton.mpr ?_) (hp "") h
  intro v _ r r' _ hset
  obtain ⟨s, -, rfl⟩ := set_of hset
  exact hp s

theorem fit_toolStartItems (hn : 1 ≤ n) (hd : ∀ v ∈ items, v.depth ≤ n) {r : String × Members}
    (h : toolStartShape.decode .buffered (.array (itemDrafts items) true) = .ok r) :
    (toolStart r.1 r.2).Fit n := by
  have hfit : ∀ f ∈ toolStartShape.fields, ∀ v ∈ items, ∀ r r' : String × Members,
      (toolStart r.1 r.2).Fit n → f.set .buffered v.toDraft r = .ok r' → (toolStart r'.1 r'.2).Fit n := by
    refine List.forall_mem_cons.mpr ⟨?_, List.forall_mem_singleton.mpr ?_⟩
    · intro v _ r r' hr hset
      obtain ⟨t, -, rfl⟩ := set_of hset
      exact ⟨trivial, hr.sorted, hr.depth⟩
    · intro v hv r r' _ hset
      obtain ⟨args, ha, rfl⟩ := set_of hset
      obtain ⟨-, rfl⟩ | ⟨-, ha⟩ := orDefault_eq_ok_iff.mp ha
      · exact .of_canonical hn trivial rfl
      · obtain ⟨ns, rfl, rfl⟩ := freeMap_eq_ok_iff.mp ha
        exact fit_toolStart (hd _ hv)
  exact setItems_induct (P := fun r => (toolStart r.1 r.2).Fit n) hfit (.of_canonical hn trivial rfl) h

theorem canonical_errorItems {r : String × ErrorKind}
    (h : errorShape.decode .buffered (.array (itemDrafts items) true) = .ok r) : r.2.Canonical := by
  have hkind : ∀ f ∈ errorShape.fields, ∀ v ∈ items, ∀ r r' : String × ErrorKind, r.2.Canonical →
      f.set .buffered v.toDraft r = .ok r' → r'.2.Canonical := by
    refine List.forall_mem_cons.mpr ⟨?_, List.forall_mem_singleton.mpr ?_⟩
    · intro v _ r r' hr hset
      obtain ⟨m, -, rfl⟩ := set_of hset
      exact hr
    · intro v hv r r' _ hset
      obtain ⟨k, hk, rfl⟩ := set_of hset
      obtain ⟨-, rfl⟩ | ⟨-, hk⟩ := orDefault_eq_ok_iff.mp hk
      · exact ErrorKind.canonical_ofCode "INTERNAL_ERROR"
      · exact (kind_eq_ok_iff.mp hk).2
  exact setItems_induct (P := fun r => r.2.Canonical) hkind (ErrorKind.canonical_ofCode "INTERNAL_ERROR") h

theorem fit_of_items (hn : 1 ≤ n) (hd : ∀ v ∈ items, v.depth ≤ n)
    (h : decode.ofValue (.array items) = .ok e) : e.Fit n := by
  have htagged : tagged _ variants .buffered (.array (itemDrafts items) true) = .ok e := h
  obtain ⟨s, rest, decode, rfl, hs, h⟩ := tagged_array.mp htagged
  obtain ⟨-, hd⟩ := List.forall_mem_cons.mp hd
  rcases variant_cases hs with ⟨-, rfl⟩ | ⟨-, rfl⟩ | ⟨-, rfl⟩ | ⟨-, rfl⟩ | ⟨-, rfl⟩ | ⟨-, rfl⟩
  · have hstart : ∀ c, (start c).Fit n := fun _ => .of_canonical hn trivial rfl
    exact fit_textItems hstart h
  · have hdelta : ∀ s, (delta s).Fit n := fun _ => .of_canonical hn trivial rfl
    exact fit_textItems hdelta h
  · obtain ⟨r, hr, rfl⟩ := map_eq_ok_iff.mp h
    exact fit_toolStartItems hn hd hr
  · obtain ⟨r, -, rfl⟩ := map_eq_ok_iff.mp h
    exact .of_canonical hn trivial rfl
  · cases rest with
    | nil =>
      cases h
      exact .of_canonical hn trivial rfl
    | cons => cases h
  · obtain ⟨r, hr, rfl⟩ := map_eq_ok_iff.mp h
    exact .of_canonical hn (canonical_errorItems hr) rfl

end Event

/-- What a frame carries can be written again. -/
theorem fit_of_event {f : Frame} {e : Event} (h : f.event = .ok e) : e.Fit 126 := by
  unfold Frame.event at h
  split at h
  · next v hread =>
    obtain ⟨t, ht, rfl⟩ := Json.read?_eq_some_iff.mp hread
    have hdepth := (Json.depth_settled_le t).trans (Json.Spells.depth_le ht)
    cases hv : t.settled with
    | object o =>
      have hs := Json.sorted_settled t
      rw [hv] at h hs hdepth
      cases hs with
      | object ha hs =>
        have ho := Json.membersDepth_le_iff.mp (Nat.le_of_succ_le_succ hdepth)
        exact Event.fit_of_told (by decide) hs ho ((event_of_object ha hs).mp h).2
    | array items =>
      rw [hv] at h hdepth
      have hi := Json.itemsDepth_le_iff.mp (Nat.le_of_succ_le_succ hdepth)
      exact Event.fit_of_items (by decide) hi h
    | _ =>
      rw [hv] at h
      cases h
  · cases h

/-- **An event that is written is read again under any name, and so is every event that a frame carries.** What
  is read is the event itself, so that it is written as the same text once more. -/
theorem event_round_trip :
    (∀ (e : Event) (name : String), e.Canonical → (Json.object e.arguments).Sorted →
      (Json.object e.arguments).Integral → e.toJson.depth ≤ Json.maxDepth →
        Frame.event ⟨name, e.toJson.compact⟩ = .ok e) ∧
    ∀ (f : Frame) (e : Event), f.event = .ok e → e.Canonical ∧ ((Json.object e.arguments).Integral →
      ∀ name, Frame.event ⟨name, e.toJson.compact⟩ = .ok e) := by
  refine ⟨fun e name hc hs hi hd => Event.event_compact hc hs hi hd name, fun f e h => ?_⟩
  have hf := fit_of_event h
  refine ⟨hf.canonical, fun hi name => ?_⟩
  exact Event.event_compact hf.canonical hf.sorted hi (Event.depth_toJson_le hf.depth) name

/-- The smallest and the largest number, and a tool that an array starts. -/
theorem event_round_trip_extremes :
    Frame.event ⟨"delta", (Event.toolStart "\"" [("a", .array [.integer (-9223372036854775808), .null]),
        ("b", .integer 18446744073709551615)]).toJson.compact⟩ =
      .ok (.toolStart "\"" [("a", .array [.integer (-9223372036854775808), .null]),
        ("b", .integer 18446744073709551615)]) ∧
    Frame.event ⟨"x", (Event.toolStart "t" [("a", .integer 1), ("b", .integer 3)]).toJson.compact⟩ =
      .ok (.toolStart "t" [("a", .integer 1), ("b", .integer 3)]) := by
  have hab : ∀ v w : Json, Members.Ascending [("a", v), ("b", w)] := by
    have hlt : ("a" : String) < "b" := by decide
    exact fun _ _ => List.pairwise_pair.mpr hlt
  have both : ∀ (P : Json → Prop) {v w : Json}, P v → P w → ∀ m ∈ [("a", v), ("b", w)], P m.2 :=
    fun P v w hv hw => List.forall_mem_cons.mpr ⟨hv, List.forall_mem_singleton.mpr hw⟩
  have hi : ∀ n : Int, Json.FitsWord n → (Json.integer n).Integral := fun n h => .number h
  constructor
  · refine event_round_trip.1 _ _ trivial (.object (hab _ _) (both Json.Sorted (.array ?_) (.number _)))
      (.object (both Json.Integral (.array ?_) (hi _ (by decide)))) (by decide)
    · exact List.forall_mem_cons.mpr ⟨.number _, List.forall_mem_singleton.mpr .null⟩
    · exact List.forall_mem_cons.mpr
        ⟨hi _ (by decide), List.forall_mem_singleton.mpr .null⟩
  · have hread : Frame.event ⟨"", "[\"tool_start\",\"t\",\x7b\"b\":2,\"a\":1,\"b\":3\x7d]"⟩ =
        .ok (.toolStart "t" [("a", .integer 1), ("b", .integer 3)]) := by decide +kernel
    refine (event_round_trip.2 _ _ hread).2 (.object (both Json.Integral ?_ ?_)) "x"
    · exact hi 1 (by decide)
    · exact hi 3 (by decide)

end Converse.Reply
