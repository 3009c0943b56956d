import Converse.Proofs.Talk.Identity

/-
  An observer who sees only what a session announces.

  `Snapshot.observe` is what such an observer makes of a notice, `observed` what it makes of all of them,
  beginning with an empty conversation. `observed_course` is the result: as long as no identity is given out
  twice, the observer always has the snapshot that the session itself gives. Each change of a session comes
  with a lemma on what the change tells (`Tells`).
-/

namespace Converse

namespace Snapshot

def enter (p : Snapshot) (stage : Stage) : Snapshot :=
  { p with stage := stage, streaming := stage == .streaming }

/-- After a turn neither text nor tools are left of it. -/
def settle (p : Snapshot) : Snapshot := { p with buffer := "", tools := [] }.enter .idle

/-- What becomes of a conversation by a notice. -/
def observe (p : Snapshot) : Notice → Snapshot
  | .turnRequested m => { p with messages := p.messages ++ [m] }.enter .awaiting
  | .turnStarted conversation =>
    { p with conversation := some conversation, mishap := none, tools := [], buffer := "" }.enter
      .streaming
  | .delta content => { p with buffer := p.buffer ++ content }
  | .toolStarted t => { p with tools := p.tools ++ [t] }
  | .toolFinished t => { p with tools := p.tools.map fun u => if u.id = t.id then t else u }
  | .turnFinalized m => { p with messages := p.messages ++ [m] }.settle
  | .turnCancelled (some m) => { p with messages := p.messages ++ [m] }.settle
  | .turnCancelled none => p.settle
  | .turnFailed e => { p with mishap := some e }.settle
  | .cleared => .initial

/-- The conversation as it follows from the notices alone. -/
def observed (ns : List Notice) : Snapshot := ns.foldl observe .initial

end Snapshot

/-- Where identities differ, the run that ended is the one to replace. -/
theorem Toolbox.finish_eq_map {b : Toolbox} {tool : String} {success : Bool}
    {summary : Option String} {r : ToolRun × Toolbox} (hn : (b.runs.map ToolRun.id).Nodup)
    (h : b.finish tool success summary = some r) :
    r.2.runs = b.runs.map fun u => if u.id = r.1.id then r.1 else u := by
  obtain ⟨before, t, after, hr, -, rfl⟩ := finish_eq_some h
  rw [hr, List.map_append, List.map_cons, List.nodup_append] at hn
  obtain ⟨-, hafter, hbefore⟩ := hn
  have kept (us : List ToolRun) (hu : ∀ u ∈ us, u.id ≠ t.id) :
      us.map (fun u => if u.id = t.id then t.finish success summary else u) = us := by
    have he : ∀ u ∈ us, (if u.id = t.id then t.finish success summary else u) = u :=
      fun u hm => if_neg (hu u hm)
    exact (List.map_congr_left he).trans (List.map_id _)
  have hb := kept before fun u hu => hbefore _ (List.mem_map_of_mem hu) _ List.mem_cons_self
  have ha := kept after fun u hu he =>
    (List.nodup_cons.mp hafter).1 (he ▸ List.mem_map_of_mem hu)
  change before ++ _ :: after = b.runs.map fun u => if u.id = t.id then t.finish success summary else u
  rw [hr, List.map_append, List.map_cons, hb, ha, if_pos rfl]

namespace Session

/-! ## What a change tells -/

/-- From `s` to `t` these notices are announced, and they tell all that an observer can see of the change. -/
structure Tells (s t : Session) (ns : List Notice) : Prop where
  given : s.mint.given.Sublist t.mint.given
  notices : t.journal.notices = s.journal.notices ++ ns
  snapshot : t.snapshot = ns.foldl Snapshot.observe s.snapshot

/-- The observer has what the session itself would show. -/
def Followed (s : Session) : Prop :=
  s.mint.given.Nodup → Snapshot.observed s.journal.notices = s.snapshot

theorem Followed.of_tells {s t : Session} {ns : List Notice} (h : s.Followed)
    (ht : Tells s t ns) : t.Followed := by
  intro hn
  have hs := h (hn.sublist ht.given)
  unfold Snapshot.observed at hs ⊢
  rw [ht.notices, List.foldl_append, hs, ht.snapshot]

/-- A turn that is not wanted any more is announced as cancelled, with the message that is kept of it. -/
theorem tells_abort {s : Session} (hp : s.phase ≠ .idle) :
    ∃ kept, Tells s s.abort [.turnCancelled kept] := by
  cases h : s.phase with
  | idle => exact absurd h hp
  | awaiting link =>
    refine ⟨none, ?_⟩
    rw [abort, h]
    exact ⟨List.Sublist.refl _, rfl, rfl⟩
  | streaming link draft =>
    cases he : draft.content.isEmpty with
    | true =>
      refine ⟨none, ?_⟩
      simp only [abort, h, he, if_true]
      exact ⟨List.Sublist.refl _, rfl, rfl⟩
    | false =>
      refine ⟨some (draft.finish s.tools.runs), ?_⟩
      simp only [abort, h, he, Bool.false_eq_true, if_false]
      exact ⟨List.Sublist.refl _, rfl, rfl⟩

theorem tells_fail (s : Session) (m : Mishap) : Tells s (s.fail m) [.turnFailed m] :=
  ⟨List.Sublist.refl _, rfl, rfl⟩

theorem tells_complete (s : Session) (draft : Message) :
    Tells s (s.complete draft) [.turnFinalized (draft.finish s.tools.runs)] :=
  ⟨List.Sublist.refl _, rfl, rfl⟩

theorem tells_startReply (s : Session) (link : Link) (conversation : String) :
    Tells s (s.startReply link conversation) [.turnStarted conversation] :=
  ⟨given_spendId s, rfl, rfl⟩

theorem tells_grow {s : Session} {link : Link} {draft : Message} (content : String)
    (hp : s.phase = .streaming link draft) :
    Tells s ({ s with phase := .streaming link (draft.append content) }.announce (.delta content))
      [.delta content] := by
  refine ⟨List.Sublist.refl _, rfl, ?_⟩
  simp [snapshot, announce, Snapshot.observe, hp, Phase.stage, Phase.buffer, Message.append]

theorem tells_startTool (s : Session) (tool : String) (arguments : Json.Members) :
    Tells s (s.startTool tool arguments)
      [.toolStarted (ToolRun.start s.freshId tool arguments)] :=
  ⟨given_spendId s, rfl, rfl⟩

/-- The end of a tool tells which run it was, as long as identities differ; one that matches no run tells
  nothing. -/
theorem tells_finishTool {s : Session} (hn : (s.tools.runs.map ToolRun.id).Nodup) (tool : String)
    (success : Bool) (summary : Option String) :
    ∃ ns, Tells s (s.finishTool tool success summary) ns := by
  unfold finishTool
  split
  · next r hr =>
    refine ⟨[.toolFinished r.1], List.Sublist.refl _, rfl, ?_⟩
    have hm := Toolbox.finish_eq_map hn hr
    simp [snapshot, announce, remark, Snapshot.observe, hm]
  · refine ⟨[], ?_⟩
    split
    · exact ⟨List.Sublist.refl _, (List.append_nil _).symm, rfl⟩
    · exact ⟨List.Sublist.refl _, (List.append_nil _).symm, rfl⟩

/-- A message that is sent is announced before its link opens, and so is the failure if it does not open. -/
theorem tells_request {s : Session} (hp : s.phase = .idle) (text : String) :
    ∃ ns, Tells s (s.request text)
      (.turnRequested (.user s.freshId s.mint.now text) :: ns) := by
  unfold request openLink
  split
  · refine ⟨[], given_spendId s, rfl, ?_⟩
    simp [snapshot, Snapshot.observe, Snapshot.enter, remark, ask, say, announce, spendId, hp,
      Phase.stage, Phase.buffer]
  · next reason _ =>
    refine ⟨[.turnFailed (.ofFailure (.request reason))], given_spendId s, ?_, rfl⟩
    simp [fail, announce, rest, remark, dropTools, leave, ask, say, spendId]

/-! ## The observer along a course -/

theorem Followed.finishTool {s : Session} (h : s.Followed) (hm : s.Minted) {link : Link}
    {draft : Message} (hp : s.phase = .streaming link draft) (tool : String) (success : Bool)
    (summary : Option String) : (s.finishTool tool success summary).Followed := by
  intro hn
  have hg : (s.finishTool tool success summary).mint.given = s.mint.given := by
    unfold Session.finishTool
    split
    · rfl
    · split <;> rfl
  obtain ⟨ns, ht⟩ := tells_finishTool (hm.nodup_tools (hg ▸ hn) hp) tool success summary
  exact h.of_tells ht hn

theorem Followed.abort {s : Session} (h : s.Followed) : s.abort.Followed := by
  by_cases hp : s.phase = .idle
  · rw [Session.abort, hp]
    exact h
  · obtain ⟨kept, ht⟩ := tells_abort hp
    exact h.of_tells ht

theorem Followed.clear {s : Session} (h : s.Followed) : s.clear.Followed := by
  have ht : Tells s s.clear [.cleared] := ⟨List.Sublist.refl _, rfl, rfl⟩
  exact h.of_tells ht

theorem Followed.fetched {s : Session} (h : s.Followed) (link : Link) :
    (s.fetched link).Followed := by
  intro hn
  rw [snapshot_fetched]
  exact h hn

theorem invariant_followed : Invariant fun s => s.Minted ∧ s.Followed where
  remark _ _ h := h
  publish _ h := h
  countDropped _ h := h
  abort s h := ⟨invariant_minted.abort s h.1, h.2.abort⟩
  fail s m hp h := ⟨invariant_minted.fail s m hp h.1, h.2.of_tells (tells_fail s m)⟩
  complete s link draft hp h :=
    ⟨invariant_minted.complete s link draft hp h.1, h.2.of_tells (tells_complete s draft)⟩
  startReply s link conversation hp h :=
    ⟨h.1.startReply link conversation, h.2.of_tells (tells_startReply s link conversation)⟩
  grow s link draft content hp h :=
    ⟨invariant_minted.grow s link draft content hp h.1, h.2.of_tells (tells_grow content hp)⟩
  startTool s link draft tool arguments hp h :=
    ⟨h.1.startTool hp tool arguments, h.2.of_tells (tells_startTool s tool arguments)⟩
  finishTool s link draft tool success summary hp h :=
    ⟨h.1.finishTool hp tool success summary, h.2.finishTool h.1 hp tool success summary⟩
  setClock _ _ h := h
  fetched s link hl h := ⟨invariant_minted.fetched s link hl h.1, h.2.fetched link⟩
  request s text hp h := by
    obtain ⟨ns, ht⟩ := tells_request hp text
    exact ⟨h.1.request text, h.2.of_tells ht⟩
  clear s h := ⟨invariant_minted.clear s h.1, h.2.clear⟩
  signalStop _ h := h

/-- **The notices tell everything.** Whatever is done to a session, an observer who knows its notices and
  nothing else knows its snapshot, as long as no identity was given out twice. -/
theorem observed_course (matching : Matching) (transport : Transport) (mint : Mint)
    (ops : List (Int × Operation))
    (fresh : ((create matching transport mint).course ops).mint.given.Nodup) :
    Snapshot.observed ((create matching transport mint).course ops).journal.notices =
      ((create matching transport mint).course ops).snapshot := by
  have h := invariant_followed.course ops (s := create matching transport mint)
    ⟨minted_of_idle rfl (List.nil_sublist _), fun _ => rfl⟩
  exact h.2 fresh

/-- A message whose link is refused, sent again, and a reply that has not come to its end. -/
theorem observed_course_of_retry :
    let feed := Feed.ofDeliveries
      [.opened, .event (.start "c1"), .event (.toolStart "search" []), .event (.delta "Hel"),
        .event (.toolStart "search" []), .event (.toolEnd "search" true (some "3 hits")),
        .event (.delta "lo")] true
    let s := (create .oldest ⟨[.refused "no route", .accepted feed], .refused "no route"⟩
      ⟨fun n => ["u1", "u2", "r2", "t1", "t2"][n]?.getD "", 0, 0⟩).course
        [(1700, .submit "Hi"), (1800, .retry), (1900, .run)]
    s.mint.given.Nodup ∧ Snapshot.observed s.journal.notices = s.snapshot :=
  ⟨by decide, observed_course _ _ _ _ (by decide)⟩

end Session

end Converse
