import Converse.Proofs.Talk.Ownership
import Converse.Proofs.Talk.Publication
import Mathlib.Data.List.Chain

/-
  A conversation only grows until it is cleared.

  `Prolongs s t` says that `t` takes nothing back of what there is in `s`: its messages, its identity, the
  frames it dropped, and the reply of a turn that both are in. Every change but a clearing prolongs, and to
  prolong is transitive. `monotone_course` is the result, for sessions and for the snapshots they publish.
-/

namespace Converse

/-! ## Tools -/

namespace ToolRun

/-- The same run at a later time: if it was running it may have ended, and nothing else becomes of it. -/
structure Advances (t u : ToolRun) : Prop where
  id : u.id = t.id
  tool : u.tool = t.tool
  arguments : u.arguments = t.arguments
  ended : t.isRunning = false → u = t
  running : t.isRunning = true → u = t ∨ u.status = .success ∨ u.status = .failed

/-- Nothing is said of the result of a run before it has ended. -/
def Silent (t : ToolRun) : Prop := t.isRunning = true → t.summary = none

theorem Advances.refl (t : ToolRun) : t.Advances t :=
  ⟨rfl, rfl, rfl, fun _ => rfl, fun _ => .inl rfl⟩

theorem Advances.trans {t u v : ToolRun} (h : t.Advances u) (h' : u.Advances v) : t.Advances v where
  id := h'.id.trans h.id
  tool := h'.tool.trans h.tool
  arguments := h'.arguments.trans h.arguments
  ended ht := by
    cases h.ended ht
    exact h'.ended ht
  running ht := by
    rcases h.running ht with rfl | hu
    · exact h'.running ht
    · have hn : u.isRunning = false := by
        rcases hu with hu | hu <;> simp [isRunning, hu]
      rw [h'.ended hn]
      exact .inr hu

theorem advances_finish {t : ToolRun} (h : t.isRunning = true) (success : Bool)
    (summary : Option String) : t.Advances (t.finish success summary) where
  id := rfl
  tool := rfl
  arguments := rfl
  ended hn := by simp [h] at hn
  running _ := by cases success <;> simp [finish]

/-- The earlier runs are the first of the later ones, each of them advanced. -/
def Forward (ts us : List ToolRun) : Prop :=
  ∀ (i : Nat) (t : ToolRun), ts[i]? = some t → ∃ u, us[i]? = some u ∧ t.Advances u

theorem Forward.refl (ts : List ToolRun) : Forward ts ts := fun _ t h => ⟨t, h, .refl t⟩

theorem Forward.trans {ts us vs : List ToolRun} (h : Forward ts us) (h' : Forward us vs) :
    Forward ts vs := by
  intro i t ht
  obtain ⟨u, hu, htu⟩ := h i t ht
  obtain ⟨v, hv, huv⟩ := h' i u hu
  exact ⟨v, hv, htu.trans huv⟩

theorem forward_append (ts us : List ToolRun) : Forward ts (ts ++ us) := by
  intro i t ht
  obtain ⟨hi, -⟩ := List.getElem?_eq_some_iff.mp ht
  exact ⟨t, by rw [List.getElem?_append_left hi, ht], .refl t⟩

theorem forward_set {ts : List ToolRun} {n : Nat} {t u : ToolRun} (hn : ts[n]? = some t)
    (h : t.Advances u) : Forward ts (ts.set n u) := by
  intro i v hv
  rw [List.getElem?_set]
  split
  · next he =>
    subst he
    cases hn.symm.trans hv
    obtain ⟨hlt, -⟩ := List.getElem?_eq_some_iff.mp hv
    exact ⟨u, if_pos hlt, h⟩
  · exact ⟨v, hv, .refl v⟩

end ToolRun

theorem Toolbox.forward_finish {b : Toolbox} {tool : String} {success : Bool}
    {summary : Option String} {r : ToolRun × Toolbox}
    (h : b.finish tool success summary = some r) : ToolRun.Forward b.runs r.2.runs := by
  obtain ⟨before, t, after, hb, ht, rfl⟩ := finish_eq_some h
  have hrun : t.isRunning = true := by
    unfold ToolRun.isRunningAs at ht
    simp_all
  have hn : b.runs[before.length]? = some t := by simp [hb]
  have hs : before ++ t.finish success summary :: after =
      b.runs.set before.length (t.finish success summary) := by simp [hb]
  change ToolRun.Forward b.runs (before ++ t.finish success summary :: after)
  rw [hs]
  exact ToolRun.forward_set hn (ToolRun.advances_finish hrun success summary)

/-! ## Snapshots -/

namespace Snapshot

/-- Later there are the same messages and maybe more, and an identity that was given is still there. -/
structure Extends (p q : Snapshot) : Prop where
  messages : p.messages <+: q.messages
  conversation : p.conversation.isSome = true → q.conversation.isSome = true

/-- Later the same reply has come further. -/
structure ReplyGrows (p q : Snapshot) : Prop where
  buffer : ∃ rest, q.buffer = p.buffer ++ rest
  tools : ToolRun.Forward p.tools q.tools
  silent : ∀ t ∈ p.tools, t.Silent

/-- The one was published right before the other. If a reply grows in both it is the same one. -/
def Follows (p q : Snapshot) : Prop :=
  p.Extends q ∧ (p.streaming = true → q.streaming = true → p.ReplyGrows q)

end Snapshot

namespace Session

/-! ## What it is to prolong -/

structure Prolongs (s t : Session) : Prop where
  history : s.history <+: t.history
  conversation : s.conversation.isSome = true → t.conversation.isSome = true
  dropped : s.dropped ≤ t.dropped
  signals : s.switch.fired.length ≤ t.switch.fired.length
  turn : ∀ i < s.switch.fired.length, t.phase.signal? = some i → s.phase.signal? = some i
  reply : ∀ link draft, s.phase = .streaming link draft → link.signal < s.switch.fired.length →
    t.phase.signal? = some link.signal →
    ∃ link' draft', t.phase = .streaming link' draft' ∧
      (∃ rest, draft'.content = draft.content ++ rest) ∧
      ToolRun.Forward s.tools.runs t.tools.runs

/-- A change inside a turn, or one that no turn is concerned with. -/
theorem prolongs_of_going {s t : Session} (hh : t.history = s.history)
    (hc : s.conversation.isSome = true → t.conversation.isSome = true) (hd : s.dropped ≤ t.dropped)
    (hf : t.switch.fired.length = s.switch.fired.length)
    (hs : t.phase.signal? = s.phase.signal?)
    (hr : ∀ link draft, s.phase = .streaming link draft →
      ∃ link' draft', t.phase = .streaming link' draft' ∧
        (∃ rest, draft'.content = draft.content ++ rest) ∧
        ToolRun.Forward s.tools.runs t.tools.runs) : Prolongs s t where
  history := hh ▸ List.prefix_refl _
  conversation := hc
  dropped := hd
  signals := Nat.le_of_eq hf.symm
  turn _ _ hi := hs ▸ hi
  reply link draft hp _ _ := hr link draft hp

/-- A change that has nothing to do with the conversation. -/
theorem prolongs_of_eq {s t : Session} (hh : t.history = s.history)
    (hc : t.conversation = s.conversation) (hd : s.dropped ≤ t.dropped)
    (hf : t.switch.fired.length = s.switch.fired.length) (hp : t.phase = s.phase)
    (hr : t.tools.runs = s.tools.runs) : Prolongs s t := by
  refine prolongs_of_going hh (fun h => hc ▸ h) hd hf (by rw [hp]) ?_
  intro link draft hs
  refine ⟨link, draft, hp.trans hs, ⟨"", String.append_empty.symm⟩, ?_⟩
  rw [hr]
  exact .refl _

theorem Prolongs.refl (s : Session) : Prolongs s s :=
  prolongs_of_eq rfl rfl (Nat.le_refl _) rfl rfl rfl

/-- A change after which no turn is under way. -/
theorem prolongs_of_idle {s t : Session} (hp : t.phase = .idle) (hh : s.history <+: t.history)
    (hc : t.conversation = s.conversation) (hd : t.dropped = s.dropped)
    (hf : s.switch.fired.length ≤ t.switch.fired.length) : Prolongs s t where
  history := hh
  conversation h := hc ▸ h
  dropped := Nat.le_of_eq hd.symm
  signals := hf
  turn _ _ hi := by simp [hp, Phase.signal?, Phase.link?] at hi
  reply link draft _ _ hi := by simp [hp, Phase.signal?, Phase.link?] at hi

theorem Prolongs.trans {s t u : Session} (h : Prolongs s t) (h' : Prolongs t u) :
    Prolongs s u where
  history := h.history.trans h'.history
  conversation hs := h'.conversation (h.conversation hs)
  dropped := Nat.le_trans h.dropped h'.dropped
  signals := Nat.le_trans h.signals h'.signals
  turn i hi hu := h.turn i hi (h'.turn i (Nat.lt_of_lt_of_le hi h.signals) hu)
  reply link draft hp hlt hu := by
    -- A turn that is under way in the first and in the last is under way in between.
    have hlt' : link.signal < t.switch.fired.length := Nat.lt_of_lt_of_le hlt h.signals
    have ht := h'.turn link.signal hlt' hu
    obtain ⟨link', draft', hp', ⟨rest, hc⟩, htools⟩ := h.reply link draft hp hlt ht
    have hsig : link'.signal = link.signal := by
      simpa [hp', Phase.signal?, Phase.link?] using ht
    rw [← hsig] at hlt' hu
    obtain ⟨link'', draft'', hp'', ⟨rest', hc'⟩, htools'⟩ := h'.reply link' draft' hp' hlt' hu
    refine ⟨link'', draft'', hp'', ⟨rest ++ rest', ?_⟩, htools.trans htools'⟩
    rw [hc', hc, String.append_assoc]

/-! ## Every change prolongs -/

theorem prolongs_abort (s : Session) : Prolongs s s.abort := by
  have hh : s.history <+: s.abort.history := by
    unfold abort
    split
    · exact List.prefix_refl _
    · exact List.prefix_refl _
    · split
      · exact List.prefix_refl _
      · exact List.prefix_append _ _
  obtain ⟨hc, hd, -⟩ := abort_frame s
  exact prolongs_of_idle (abort_phase s) hh hc hd (Nat.le_of_eq (length_fired_abort s).symm)

theorem prolongs_grow {s : Session} {link : Link} {draft : Message}
    (hp : s.phase = .streaming link draft) (content : String) :
    Prolongs s ({ s with phase := .streaming link (draft.append content) }.announce
      (.delta content)) := by
  refine prolongs_of_going rfl (fun h => h) (Nat.le_refl _) rfl (by rw [hp]; rfl) ?_
  intro l d hs
  cases hp.symm.trans hs
  exact ⟨link, draft.append content, rfl, ⟨content, rfl⟩, .refl _⟩

/-- The tools of a reply may go forward while its text stays. -/
theorem prolongs_of_tools {s t : Session} (hh : t.history = s.history)
    (hc : t.conversation = s.conversation) (hd : t.dropped = s.dropped) (hs : t.switch = s.switch)
    (hp : t.phase = s.phase) (hr : ToolRun.Forward s.tools.runs t.tools.runs) : Prolongs s t := by
  refine prolongs_of_going hh (fun h => hc ▸ h) (Nat.le_of_eq hd.symm) (by rw [hs]) (by rw [hp]) ?_
  intro link draft hs
  exact ⟨link, draft, hp.trans hs, ⟨"", String.append_empty.symm⟩, hr⟩

theorem prolongs_finishTool (s : Session) (tool : String) (success : Bool)
    (summary : Option String) : Prolongs s (s.finishTool tool success summary) := by
  unfold finishTool
  split
  · next r hr => exact prolongs_of_tools rfl rfl rfl rfl rfl (Toolbox.forward_finish hr)
  · split
    · exact prolongs_of_eq rfl rfl (Nat.le_refl _) rfl rfl rfl
    · exact prolongs_of_eq rfl rfl (Nat.le_refl _) rfl rfl rfl

theorem prolongs_fetched (s : Session) (link : Link) (hl : s.phase.link? = some link) :
    Prolongs s (s.fetched link) := by
  have hf : (s.fetched link).switch.fired.length = s.switch.fired.length := by
    unfold fetched
    dsimp only
    split
    · exact List.length_set
    · rfl
  have hs : (s.fetched link).phase.signal? = s.phase.signal? := by
    simp [Phase.signal?, link?_fetched hl, hl]
  refine prolongs_of_going rfl (fun h => h) (Nat.le_refl _) hf hs ?_
  intro l draft hp
  refine ⟨{ link with feed := link.feed.fetch.2.1 }, draft, ?_, ⟨"", String.append_empty.symm⟩,
    .refl _⟩
  simp [fetched, hp, Phase.withLink]

/-- A new request gets a signal of its own, so it is not a turn that was under way before. -/
theorem prolongs_request {s : Session} (hp : s.phase = .idle) (text : String) :
    Prolongs s (s.request text) := by
  unfold request openLink
  split
  · exact {
      history := List.prefix_append _ _
      conversation := fun h => h
      dropped := Nat.le_refl _
      signals := by simp [remark, ask, say, announce, spendId, Switch.begin]
      turn := by
        intro i hi hs
        simp [say, announce, spendId, Switch.begin, Phase.signal?, Phase.link?] at hs
        omega
      reply := by
        intro link draft hs
        cases hp.symm.trans hs }
  · refine prolongs_of_idle rfl (List.prefix_append _ _) rfl rfl ?_
    simp [fail, announce, rest, remark, dropTools, leave, ask, say, spendId, hp, Phase.link?,
      Switch.begin, Switch.rest]

theorem kept_prolongs (s : Session) : Kept (Prolongs s) where
  remark _ _ h := h.trans (prolongs_of_eq rfl rfl (Nat.le_refl _) rfl rfl rfl)
  publish _ h := h.trans (prolongs_of_eq rfl rfl (Nat.le_refl _) rfl rfl rfl)
  countDropped _ h := h.trans (prolongs_of_eq rfl rfl (Nat.le_succ _) rfl rfl rfl)
  abort t h := h.trans (prolongs_abort t)
  fail t _ _ h :=
    h.trans (prolongs_of_idle rfl (List.prefix_refl _) rfl rfl (Nat.le_of_eq (length_fired_leave t).symm))
  complete t _ _ _ h :=
    h.trans (prolongs_of_idle rfl (List.prefix_append _ _) rfl rfl
      (Nat.le_of_eq (length_fired_leave t).symm))
  startReply t link _ hp h := by
    refine h.trans (prolongs_of_going rfl (fun _ => rfl) (Nat.le_refl _) rfl (by rw [hp]; rfl) ?_)
    intro l draft hs
    cases hp.symm.trans hs
  grow _ _ _ content hp h := h.trans (prolongs_grow hp content)
  startTool _ _ _ _ _ _ h :=
    h.trans (prolongs_of_tools rfl rfl rfl rfl rfl (ToolRun.forward_append _ _))
  finishTool t _ _ tool success summary _ h := h.trans (prolongs_finishTool t tool success summary)

theorem prolongs_enact (s : Session) {d : Deed} (hd : d ≠ .clear) : Prolongs s (s.enact d) := by
  cases d with
  | setClock now => exact prolongs_of_eq rfl rfl (Nat.le_refl _) rfl rfl rfl
  | send text =>
    exact (kept_prolongs s).send text (fun t hp h => h.trans (prolongs_request hp text)) (.refl s)
  | step => exact (kept_prolongs s).step (fun link hl _ => prolongs_fetched s link hl) fun _ => .refl s
  | stop => exact (kept_prolongs s).stop (.refl s)
  | clear => exact absurd rfl hd
  | signalStop => exact prolongs_of_eq rfl rfl (Nat.le_refl _) List.length_set rfl rfl

theorem prolongs_enactAll (ds : List Deed) (h : .clear ∉ ds) (s : Session) :
    Prolongs s (s.enactAll ds) := by
  induction ds generalizing s with
  | nil => exact .refl s
  | cons d ds ih =>
    have hd : d ≠ .clear := fun hd => h (hd ▸ List.mem_cons_self)
    exact (prolongs_enact s hd).trans (ih (fun hm => h (List.mem_cons_of_mem _ hm)) _)

/-! ## What is seen of it -/

def Hushed (s : Session) : Prop := ∀ t ∈ s.tools.runs, t.Silent

theorem hushed_of_nil {s : Session} (h : s.tools.runs = []) : s.Hushed := by
  intro t ht
  rw [h] at ht
  exact absurd ht List.not_mem_nil

theorem Hushed.finishTool {s : Session} (h : s.Hushed) (tool : String) (success : Bool)
    (summary : Option String) : (s.finishTool tool success summary).Hushed := by
  unfold Session.finishTool
  split
  · next r hr =>
    obtain ⟨before, t, after, hb, -, rfl⟩ := Toolbox.finish_eq_some hr
    intro u hu
    rcases List.mem_append.mp hu with hu | hu
    · exact h u (hb ▸ List.mem_append_left _ hu)
    · rcases List.mem_cons.mp hu with rfl | hu
      · intro hrun
        simp [ToolRun.isRunning_finish] at hrun
      · exact h u (hb ▸ List.mem_append_right _ (List.mem_cons_of_mem _ hu))
  · split <;> exact h

theorem invariant_hushed : Invariant Hushed where
  remark _ _ h := h
  publish _ h := h
  countDropped _ h := h
  abort s h := by
    unfold abort
    split
    · exact h
    · exact hushed_of_nil rfl
    · split <;> exact hushed_of_nil rfl
  fail _ _ _ _ := hushed_of_nil rfl
  complete _ _ _ _ _ := hushed_of_nil rfl
  startReply _ _ _ _ _ := hushed_of_nil rfl
  grow _ _ _ _ _ h := h
  startTool _ _ _ _ _ _ h := by
    intro t ht
    rcases List.mem_append.mp ht with ht | ht
    · exact h t ht
    · rw [List.mem_singleton.mp ht]
      exact fun _ => rfl
  finishTool _ _ _ tool success summary _ h := h.finishTool tool success summary
  setClock _ _ h := h
  fetched _ _ _ h := h
  request s text _ h := by
    unfold request openLink
    split
    · exact h
    · exact hushed_of_nil rfl
  clear _ _ := hushed_of_nil rfl
  signalStop _ h := h

theorem Prolongs.extends {s t : Session} (h : Prolongs s t) : s.snapshot.Extends t.snapshot :=
  ⟨h.history, h.conversation⟩

/-- A reply that grows in both sessions is the same one if its link has the same signal. -/
theorem Prolongs.replyGrows {s t : Session} (h : Prolongs s t) (hushed : s.Hushed)
    {link link' : Link} {draft draft' : Message} (hs : s.phase = .streaming link draft)
    (ht : t.phase = .streaming link' draft') (hlt : link.signal < s.switch.fired.length)
    (same : link'.signal = link.signal) : s.snapshot.ReplyGrows t.snapshot := by
  have hi : t.phase.signal? = some link.signal := by
    rw [ht, ← same]
    rfl
  obtain ⟨l, d, hl, hrest, htools⟩ := h.reply link draft hs hlt hi
  cases ht.symm.trans hl
  refine ⟨?_, htools, hushed⟩
  simpa only [snapshot, hs, ht, Phase.buffer] using hrest

theorem streaming_of_snapshot {s : Session} (h : s.snapshot.streaming = true) :
    ∃ link draft, s.phase = .streaming link draft := by
  cases hp : s.phase with
  | streaming link draft => exact ⟨link, draft, rfl⟩
  | _ => simp [snapshot, hp, Phase.stage] at h

/-- A reply that grows after a single deed belongs to the turn that was under way before. -/
theorem signal_of_enact {s : Session} {d : Deed} {link' : Link} {draft' : Message}
    (h : (s.enact d).phase = .streaming link' draft') :
    ∃ link, s.phase.link? = some link ∧ link'.signal = link.signal := by
  have hl : (s.enact d).phase.link? = some link' := by rw [h]; rfl
  cases d with
  | send text =>
    have hp : (s.send text).phase = _ := (supply_send s text).2.2
    have h : (s.send text).phase = .streaming link' draft' := h
    rw [hp] at h
    split at h <;> cases h
  | step =>
    obtain ⟨l, hl', -, rfl⟩ := link?_step hl
    exact ⟨l, hl', rfl⟩
  | _ => exact ⟨link', (supply_quiet rfl).2.2 link' hl, rfl⟩

variable {script : Transport} {hits : List Nat} {s : Session}

theorem Owned.follows_enact (owned : Owned script hits s) (hushed : s.Hushed) {d : Deed}
    (hd : d ≠ .clear) : s.snapshot.Follows (s.enact d).snapshot := by
  have h := prolongs_enact s hd
  refine ⟨h.extends, ?_⟩
  intro hs ht
  obtain ⟨link, draft, hs⟩ := streaming_of_snapshot hs
  obtain ⟨link', draft', ht⟩ := streaming_of_snapshot ht
  obtain ⟨l, hl, same⟩ := signal_of_enact ht
  have hl' : s.phase.link? = some link := by rw [hs]; rfl
  cases hl.symm.trans hl'
  exact h.replyGrows hushed hs ht (owned.signal_lt hl) same

/-- What deeds publish follows on what was there before, one snapshot after another. -/
theorem Owned.chain_enactAll (owned : Owned script hits s) (hushed : s.Hushed) (ds : List Deed)
    (h : .clear ∉ ds) :
    ∃ shown, (s.enactAll ds).journal.published = s.journal.published ++ shown ∧
      (s.snapshot :: shown).IsChain Snapshot.Follows := by
  induction ds generalizing s hits with
  | nil => exact ⟨[], (List.append_nil _).symm, List.isChain_singleton _⟩
  | cons d ds ih =>
    have hd : d ≠ .clear := fun hd => h (hd ▸ List.mem_cons_self)
    have hds : .clear ∉ ds := fun hm => h (List.mem_cons_of_mem _ hm)
    obtain ⟨shown, hp, hc⟩ := ih (owned.enact d) (invariant_hushed.enact d hushed) hds
    change ((s.enact d).enactAll ds).journal.published = _ at hp
    cases shows_enact s d with
    | once hq =>
      refine ⟨(s.enact d).snapshot :: shown, ?_, hc.cons_cons (owned.follows_enact hushed hd)⟩
      change ((s.enact d).enactAll ds).journal.published = _
      rw [hp, hq, List.append_assoc]
      rfl
    | nothing hq hs =>
      refine ⟨shown, ?_, hs ▸ hc⟩
      change ((s.enact d).enactAll ds).journal.published = _
      rw [hp, hq]

/-! ## Courses -/

/-- **A conversation only grows until it is cleared.** After any further operations but a clearing, the messages
  of a reachable session are the first of those there are then, its identity is not lost and no dropped frame
  is forgotten; and if the same turn still gets its reply, text and tools of that reply have only come
  further. The same holds from each published snapshot to the next, beginning with the one that a watcher
  found before. -/
theorem monotone_course (matching : Matching) (transport : Transport) (mint : Mint)
    (ops later : List (Int × Operation)) (unclear : ∀ op ∈ later, op.2 ≠ .clear) :
    let s := (create matching transport mint).course ops
    let t := s.course later
    s.snapshot.Extends t.snapshot ∧ s.dropped ≤ t.dropped ∧
    (∀ link draft link' draft', s.phase = .streaming link draft →
      t.phase = .streaming link' draft' → link'.signal = link.signal →
      s.snapshot.ReplyGrows t.snapshot) ∧
    ∃ shown, t.journal.published = s.journal.published ++ shown ∧
      (s.latest :: shown).IsChain Snapshot.Follows := by
  intro s t
  have owned := owned_of_course matching transport mint ops
  have hushed : s.Hushed :=
    invariant_hushed.course ops (s := create matching transport mint) (hushed_of_nil rfl)
  have hds := clear_not_mem_courseDeeds s unclear
  have ht : t = s.enactAll (s.courseDeeds later) := course_eq_enactAll s later
  have h : Prolongs s t := ht ▸ prolongs_enactAll _ hds s
  refine ⟨h.extends, h.dropped, ?_, ?_⟩
  · intro link draft link' draft' hs hs' same
    have hl : s.phase.link? = some link := by rw [hs]; rfl
    exact h.replyGrows hushed hs hs' (owned.signal_lt hl) same
  · rw [ht, latest_course matching transport mint ops]
    exact owned.chain_enactAll hushed _ hds

/-- A reply with two runs of one tool, the older of which ends while more text comes. -/
theorem monotone_course_of_tool :
    let feed := Feed.ofDeliveries
      [.event (.start "c1"), .event (.delta "Hel"), .event (.toolStart "search" []),
        .event (.toolStart "search" []), .event (.delta "lo"),
        .event (.toolEnd "search" true (some "3 hits"))] true
    let s := (create .oldest ⟨[.accepted feed], .refused "no route"⟩
      ⟨fun n => ["u1", "r1", "t1", "t2"][n]?.getD "", 0, 0⟩).course [(1700, .send "Hi"), (1700, .step 3)]
    let later := [(1800, .step 2), (1900, .run)]
    (∀ op ∈ later, op.2 ≠ .clear) ∧ s.snapshot.ReplyGrows (s.course later).snapshot ∧
      s.snapshot.buffer = "Hel" ∧ s.snapshot.tools = [⟨"t1", "search", [], .running, none⟩] ∧
      (s.course later).snapshot.buffer = "Hello" ∧
      (s.course later).snapshot.tools =
        [⟨"t1", "search", [], .success, some "3 hits"⟩, ⟨"t2", "search", [], .running, none⟩] := by
  intro feed s later
  have unclear : ∀ op ∈ later, op.2 ≠ .clear := by decide
  have h := monotone_course .oldest ⟨[.accepted feed], .refused "no route"⟩
    ⟨fun n => ["u1", "r1", "t1", "t2"][n]?.getD "", 0, 0⟩ [(1700, .send "Hi"), (1700, .step 3)]
    later unclear
  obtain ⟨link, draft, hs⟩ := streaming_of_snapshot (s := s) (by decide)
  obtain ⟨link', draft', ht⟩ := streaming_of_snapshot (s := s.course later) (by decide)
  have same : (s.course later).phase.signal? = s.phase.signal? := by decide
  rw [hs, ht] at same
  exact ⟨unclear, h.2.2.1 link draft link' draft' hs ht (Option.some.inj same),
    by decide, by decide, by decide, by decide⟩

end Session

end Converse
