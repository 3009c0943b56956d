import Converse.Proofs.Json.Recovery
import Converse.Proofs.Reply.Decoding
import Converse.Talk.Notice
import Converse.Talk.Snapshot

/-
  Snapshots and notices that are written down and read again.

  A value that is missing is written as null in some places and not at all in others, and either way it is
  found missing again. Each record is recovered field by field, whatever it holds, and so is what is made of
  records.
  `Snapshot.ofText_compact` and `Notice.ofText_compact` are the results: the text says just what was written,
  if it is `Sound`, as everything is that a session holds, and `Plain`.
-/

namespace Converse

open Json (Recovers Shape.Fills FitsLong)

/-! ## What is written -/

/-- The arguments stand in the order of their names, each name once. -/
def ToolRun.Sound (t : ToolRun) : Prop := (Json.object t.arguments).Sorted

/-- The time is a 64-bit integer, and the arguments of tools are in order. -/
structure Message.Sound (m : Message) : Prop where
  stamp : FitsLong m.timestamp
  tools : ∀ t ∈ m.toolList, t.Sound

/-- The records that a snapshot or a notice is made of. -/
structure Content where
  messages : List Message
  tools : List ToolRun
  mishap : Option Mishap

namespace Content

/-- Each message and each tool is as its type has it. -/
structure Sound (c : Content) : Prop where
  messages : ∀ m ∈ c.messages, m.Sound
  tools : ∀ t ∈ c.tools, t.Sound

/-- All runs, those that are kept with a message included. -/
def runs (c : Content) : List ToolRun := c.tools ++ c.messages.flatMap Message.toolList

/-- The codes of errors are kept under their own names, and numbers among arguments are integers. -/
structure Plain (c : Content) : Prop where
  canonical : ∀ e ∈ c.mishap, e.kind.Canonical
  numbers : ∀ t ∈ c.runs, (Json.object t.arguments).Integral

theorem mem_runs {c : Content} {t : ToolRun} :
    t ∈ c.runs ↔ t ∈ c.tools ∨ ∃ m ∈ c.messages, t ∈ m.toolList := by
  rw [runs, List.mem_append, List.mem_flatMap]

theorem sound_empty (e : Option Mishap) : Sound ⟨[], [], e⟩ :=
  ⟨fun _ h => (nomatch h), fun _ h => (nomatch h)⟩

theorem sound_message {m : Message} (h : m.Sound) : Sound ⟨[m], [], none⟩ :=
  ⟨List.forall_mem_singleton.mpr h, fun _ h => (nomatch h)⟩

theorem sound_tool {t : ToolRun} (h : t.Sound) : Sound ⟨[], [t], none⟩ :=
  ⟨fun _ h => (nomatch h), List.forall_mem_singleton.mpr h⟩

end Content

def Snapshot.content (s : Snapshot) : Content := ⟨s.messages, s.tools, s.mishap⟩

def Notice.content : Notice → Content
  | .turnRequested m => ⟨[m], [], none⟩
  | .turnStarted _ => ⟨[], [], none⟩
  | .delta _ => ⟨[], [], none⟩
  | .toolStarted t => ⟨[], [t], none⟩
  | .toolFinished t => ⟨[], [t], none⟩
  | .turnFinalized m => ⟨[m], [], none⟩
  | .turnFailed e => ⟨[], [], some e⟩
  | .turnCancelled m => ⟨m.toList, [], none⟩
  | .cleared => ⟨[], [], none⟩

/-! ## Records that are recovered -/

theorem ToolRun.Status.recovers (s : Status) : Recovers Status.decode (.string s.name) s :=
  Json.recovers_choice (by cases s <;> rfl)

theorem Message.Role.recovers (r : Role) : Recovers Role.decode (.string (Role.name r)) r :=
  Json.recovers_choice (by cases r <;> rfl)

theorem Snapshot.Stage.recovers (s : Stage) : Recovers Stage.decode (.string (Stage.name s)) s :=
  Json.recovers_choice (by cases s <;> rfl)

theorem ErrorKind.Canonical.recovers {k : ErrorKind} (h : k.Canonical) :
    Recovers ErrorKind.decode k.toJson k :=
  fun _ => Reply.Event.kind_eq_ok_iff.mpr ⟨rfl, h⟩

theorem ToolRun.Sound.recovers {t : ToolRun} (h : t.Sound) : Recovers ToolRun.decode t.toJson t := by
  refine Json.Shape.recovers (by decide) fun mode => ?_
  obtain ⟨id, tool, arguments, status, summary⟩ := t
  refine .of (Json.recovers_text id) (.of (Json.recovers_text tool) (.of (Json.recovers_freeMap h) ?_))
  refine .of status.recovers ?_
  cases summary with
  | none => exact .omitted (by decide) (.nil _)
  | some s => exact .of ((Json.recovers_text s).optional (by simp)) (.nil _)

theorem Message.Sound.recovers {m : Message} (h : m.Sound) : Recovers Message.decode m.toJson m := by
  refine Json.Shape.recovers (by decide) fun mode => ?_
  obtain ⟨id, role, content, timestamp, growing, tools⟩ := m
  refine .of (Json.recovers_text id) (.of (Role.recovers role) (.of (Json.recovers_text content) ?_))
  refine .of (Json.recovers_long h.stamp) (.of (Json.recovers_flag growing) ?_)
  cases tools with
  | none => exact .omitted (by decide) (.nil _)
  | some ts =>
    have hts := Json.recovers_sequence fun t ht => (h.tools t ht).recovers
    exact .of (hts.optional (by simp)) (.nil _)

theorem Mishap.recovers {e : Mishap} (h : e.kind.Canonical) : Recovers Mishap.decode e.toJson e :=
  Json.Shape.recovers (by decide) fun _ =>
    .of (Json.recovers_text e.message) (.of h.recovers (.of (Json.recovers_flag e.retryable) (.nil _)))

/-- Whatever is written of a snapshot is recovered. -/
theorem Snapshot.recovers {s : Snapshot} (hs : s.content.Sound) (hp : s.content.Plain) :
    Recovers Snapshot.decode s.toJson s := by
  have hmessages : ∀ m ∈ s.messages, Recovers Message.decode m.toJson m :=
    fun m hm => (hs.messages m hm).recovers
  have htools : ∀ t ∈ s.tools, Recovers ToolRun.decode t.toJson t := fun t ht => (hs.tools t ht).recovers
  obtain ⟨conversation, messages, streaming, buffer, tools, mishap, stage⟩ := s
  refine Json.Shape.recovers (by decide) fun mode => ?_
  refine .of (Json.recovers_ofOption fun c _ => ⟨by simp, Json.recovers_text c⟩) ?_
  refine .of (Json.recovers_sequence hmessages) (.of (Json.recovers_flag streaming) ?_)
  refine .of (Json.recovers_text buffer) (.of (Json.recovers_sequence htools) ?_)
  refine .of (Json.recovers_ofOption fun e he => ⟨by simp [Mishap.toJson], Mishap.recovers ?_⟩) ?_
  · exact hp.canonical e he
  · exact .of (Stage.recovers stage) (.nil _)

namespace Notice

/-- A notice with one field is recovered if the field is. -/
theorem recovers_single {α : Type} {variant field : String} {need : Json.Need} {decode : Json.Decoder α}
    {blank a : α} {build : α → Notice} {v : Json} (h : Recovers decode v a) :
    Recovers (single variant field need decode blank build) (.object [(field, v)]) (build a) := by
  refine Json.Recovers.map (Json.Shape.recovers ?_ fun mode => ?_) build
  · exact List.nodup_singleton field
  · exact .of h (.nil a)

/-- No field is called as the tag is. -/
theorem distinct_members (n : Notice) :
    Json.Members.Distinct ((Json.tagName, .string n.name) :: n.fields) := by
  cases n <;> simp [Json.Members.Distinct, fields, Json.tagName]

/-- Whatever is written of a notice is recovered. -/
theorem recovers {n : Notice} (hs : n.content.Sound) (hp : n.content.Plain) :
    Recovers Notice.decode n.toJson n := by
  cases n with
  | turnRequested m | turnFinalized m =>
    exact Json.recovers_tagged rfl (distinct_members _)
      (recovers_single (hs.messages m List.mem_cons_self).recovers)
  | turnStarted c | delta c =>
    exact Json.recovers_tagged rfl (distinct_members _)
      (recovers_single (Json.recovers_text c))
  | toolStarted t | toolFinished t =>
    exact Json.recovers_tagged rfl (distinct_members _)
      (recovers_single (hs.tools t List.mem_cons_self).recovers)
  | turnFailed e =>
    exact Json.recovers_tagged rfl (distinct_members _)
      (recovers_single (Mishap.recovers (hp.canonical e rfl)))
  | turnCancelled m =>
    have hm : Recovers (Json.optional Message.decode) (Json.ofOption Message.toJson m) m :=
      Json.recovers_ofOption fun m hm =>
        ⟨by simp [Message.toJson], (hs.messages m (Option.mem_toList.mpr hm)).recovers⟩
    exact Json.recovers_tagged rfl (distinct_members _) (recovers_single hm)
  | cleared =>
    exact Json.recovers_tagged rfl (distinct_members _) (Json.recovers_bare _)

end Notice

/-! ## Numbers that are written -/

open Json (Integral)

theorem ToolRun.integral_toJson {t : ToolRun} (h : (Json.object t.arguments).Integral) :
    t.toJson.Integral := by
  refine .object (List.forall_mem_append.mpr ⟨by simp [Integral.string, h], ?_⟩)
  cases t.summary <;> simp [Integral.string]

theorem Message.integral_toJson {m : Message} (hs : FitsLong m.timestamp)
    (ha : ∀ t ∈ m.toolList, (Json.object t.arguments).Integral) : m.toJson.Integral := by
  have ht : (Json.integer m.timestamp).Integral := .number hs.fitsWord
  refine .object (List.forall_mem_append.mpr ⟨by simp [Integral.string, Integral.bool, ht], ?_⟩)
  cases hm : m.tools with
  | none => exact fun _ h => nomatch h
  | some ts =>
    refine List.forall_mem_singleton.mpr (Json.integral_items fun t ht => ToolRun.integral_toJson (ha t ?_))
    rwa [toolList, hm]

theorem Mishap.integral_toJson (e : Mishap) : e.toJson.Integral := by
  refine .object ?_
  simp [ErrorKind.toJson, Integral.string, Integral.bool]

/-- The numbers in a content are the times of its messages and those among arguments. -/
theorem Content.Sound.integral {c : Content} (hs : c.Sound) (hp : c.Plain) :
    (∀ m ∈ c.messages, m.toJson.Integral) ∧ ∀ t ∈ c.tools, t.toJson.Integral := by
  constructor
  · intro m hm
    refine Message.integral_toJson (hs.messages m hm).stamp fun t ht => hp.numbers t ?_
    exact mem_runs.mpr (.inr ⟨m, hm, ht⟩)
  · exact fun t ht => ToolRun.integral_toJson (hp.numbers t (mem_runs.mpr (.inl ht)))

theorem Snapshot.integral_toJson {s : Snapshot} (hs : s.content.Sound) (hp : s.content.Plain) :
    s.toJson.Integral := by
  obtain ⟨hmessages, htools⟩ := hs.integral hp
  have hc : (Json.ofOption Json.string s.conversation).Integral :=
    Json.integral_ofOption fun c _ => .string c
  have hm : (Json.array (s.messages.map Message.toJson)).Integral := Json.integral_items hmessages
  have ht : (Json.array (s.tools.map ToolRun.toJson)).Integral := Json.integral_items htools
  have he : (Json.ofOption Mishap.toJson s.mishap).Integral :=
    Json.integral_ofOption fun e _ => e.integral_toJson
  refine .object ?_
  simp [Integral.string, Integral.bool, hc, hm, ht, he]

theorem Notice.integral_toJson {n : Notice} (hs : n.content.Sound) (hp : n.content.Plain) :
    n.toJson.Integral := by
  obtain ⟨hmessages, htools⟩ := hs.integral hp
  refine .object (List.forall_mem_cons.mpr ⟨.string _, ?_⟩)
  cases n with
  | turnRequested m | turnFinalized m => exact List.forall_mem_singleton.mpr (hmessages m List.mem_cons_self)
  | turnStarted c | delta c => exact List.forall_mem_singleton.mpr (.string c)
  | toolStarted t | toolFinished t => exact List.forall_mem_singleton.mpr (htools t List.mem_cons_self)
  | turnFailed e => exact List.forall_mem_singleton.mpr e.integral_toJson
  | turnCancelled m =>
    refine List.forall_mem_singleton.mpr (Json.integral_ofOption fun m hm => ?_)
    exact hmessages m (Option.mem_toList.mpr hm)
  | cleared => exact fun _ h => nomatch h

/-! ## Texts -/

/-- **A snapshot is read from its text.** -/
theorem Snapshot.ofText_compact {s : Snapshot} (hs : s.content.Sound) (hp : s.content.Plain)
    (hd : s.toJson.depth ≤ Json.maxDepth) : Snapshot.decode.ofText s.toJson.compact = .ok s :=
  Json.ofText_compact (recovers hs hp) (integral_toJson hs hp) hd

/-- **A notice is read from its text**, its kind being told by its tag. -/
theorem Notice.ofText_compact {n : Notice} (hs : n.content.Sound) (hp : n.content.Plain)
    (hd : n.toJson.depth ≤ Json.maxDepth) : Notice.decode.ofText n.toJson.compact = .ok n :=
  Json.ofText_compact (recovers hs hp) (integral_toJson hs hp) hd

end Converse
