import Converse.Proofs.Talk.Consultation
import Converse.Proofs.Talk.FreshStart

/-
  A session does not look back at what it has let out.

  Two sessions that are the same off the record (`OffRecord`) may have let out different things until now. Each
  of them goes on as if it had let out nothing yet (`twin_silent`). `OffRecord.transcript` is the result: all
  that is done to both is answered alike, and from here on both let out the same.
-/

namespace Converse

/-- The views go on from two earlier ones in the same way. -/
structure View.Parallel (earlier earlier' v v' : View) : Prop where
  snapshot : v'.snapshot = v.snapshot
  notices : ∃ new, v.notices = earlier.notices ++ new ∧ v'.notices = earlier'.notices ++ new
  questions : ∃ new, v.questions = earlier.questions ++ new ∧
    v'.questions = earlier'.questions ++ new
  published : ∃ new, v.published = earlier.published ++ new ∧
    v'.published = earlier'.published ++ new
  running : v'.running = v.running
  dropped : v'.dropped = v.dropped
  cancelled : v'.cancelled = v.cancelled

/-- The view with nothing counted yet. -/
def View.uncounted (v : View) : View := { v with dropped := 0, cancelled := [] }

theorem View.parallel_of_continues {earlier earlier' v u u' : View}
    (h : Continues .same earlier.uncounted v u) (h' : Continues .same earlier'.uncounted v u') :
    Parallel earlier earlier' u u' where
  snapshot := h'.snapshot.trans h.snapshot.symm
  notices := ⟨_, h.notices, h'.notices⟩
  questions := ⟨_, h.questions, h'.questions⟩
  published := ⟨_, h.published, h'.published⟩
  running := h'.running.trans h.running.symm
  dropped := h'.dropped.trans h.dropped.symm
  cancelled := h'.cancelled.trans h.cancelled.symm

namespace Session

/-- The second session is the first in all but what was let out. -/
def OffRecord (s t : Session) : Prop := t = { s with journal := t.journal }

namespace OffRecord

variable {s t u : Session}

theorem trans (h : OffRecord s t) (h' : OffRecord t u) : OffRecord s u := by
  unfold OffRecord at *
  rw [h', h]

/-- A change that does not depend on what was let out. -/
theorem map (h : OffRecord s t) (g : Session → Session)
    (hg : ∀ s journal, OffRecord (g s) (g { s with journal := journal })) : OffRecord (g s) (g t) := by
  rw [h]
  exact hg s t.journal

theorem snapshot (h : OffRecord s t) : t.snapshot = s.snapshot := by
  rw [h]
  rfl

theorem publish (h : OffRecord s t) : OffRecord s.publish t.publish :=
  h.map (·.publish) fun _ _ => rfl

theorem abort (h : OffRecord s t) : OffRecord s.abort t.abort := by
  refine h.map (·.abort) fun s journal => ?_
  obtain ⟨_, _, _, phase, _, _, _, _, _, _⟩ := s
  cases phase with
  | idle => rfl
  | awaiting link => rfl
  | streaming link draft =>
    simp only [OffRecord, Session.abort]
    split <;> rfl

theorem request (h : OffRecord s t) (text : String) :
    OffRecord (s.request text) (t.request text) := by
  refine h.map (·.request text) fun s journal => ?_
  unfold OffRecord Session.request openLink
  cases ho : s.transport.next.1 with
  | accepted feed => simp only [say, spendId, announce, ask, ho]; rfl
  | refused reason => simp only [say, spendId, announce, ask, ho]; rfl

end OffRecord

/-- The session with nothing let out yet. -/
def silent (s : Session) : Session := { s with journal := ⟨[], [], [], []⟩ }

/-- The signals of requests are numbered from one. -/
structure Numbered (s : Session) : Prop where
  nonempty : 0 < s.switch.fired.length
  signal : ∀ link, s.phase.link? = some link → 0 < link.signal

theorem numbered_of_idle {s : Session} (hp : s.phase = .idle) (h : 0 < s.switch.fired.length) :
    s.Numbered := by
  refine ⟨h, ?_⟩
  intro link hl
  rw [hp] at hl
  cases hl

theorem Owned.numbered {script : Transport} {hits : List Nat} {s : Session}
    (h : Owned script hits s) : s.Numbered where
  nonempty := by
    rw [h.size]
    exact Nat.succ_pos _
  signal link hl := by
    obtain ⟨k, hk, -⟩ := h.signal link.signal (signal?_of_link? hl)
    omega

theorem Numbered.signalStop {s : Session} (h : s.Numbered) : s.signalStop.Numbered where
  nonempty := Nat.lt_of_lt_of_eq h.nonempty List.length_set.symm
  signal := h.signal

theorem Phase.alike_same {p : Phase} (signal : ∀ link, p.link? = some link → 0 < link.signal) :
    Phase.Alike .same 0 p p := by
  cases p with
  | idle => exact .idle
  | awaiting link => exact .awaiting (signal link rfl) (Nat.zero_add _).symm
  | streaming link draft =>
    have h : Phase.Alike .same 0 (.streaming link draft) (.streaming link (Renaming.same.message draft)) :=
      .streaming draft (signal link rfl) (Nat.zero_add _).symm
    rwa [Renaming.message_same] at h

/-- What a session has let out is all that it has beyond a session that has let out nothing. -/
theorem twin_silent {s : Session} (h : s.Numbered) :
    Twin .same s.view.uncounted s.silent s where
  transport := rfl
  feed l l' hl hl' := by
    have hs : s.phase.link? = some l := hl
    rw [hs] at hl'
    cases hl'
    rfl
  alike :=
    { conversation := rfl
      history := by
        rw [Renaming.message_same]
        exact (List.map_id s.history).symm
      matching := rfl
      runs := (List.map_id s.tools.runs).symm
      phase := Phase.alike_same h.signal
      mishap := rfl
      dropped := (Nat.zero_add _).symm
      installed := (Nat.zero_add _).symm
      size := (Nat.zero_add _).symm
      nonempty := h.nonempty
      fired := by
        intro i _
        change s.switch.hasFired (0 + i) = s.switch.hasFired i
        rw [Nat.zero_add]
      running := rfl
      label := fun _ => rfl
      now := rfl
      notices := (List.append_nil _).symm
      questions := (List.append_nil _).symm
      published := (List.append_nil _).symm }

theorem lockstep_silent (earlier earlier' : View) : Lockstep id fun _ s t =>
    ∃ silent, Twin .same earlier silent s ∧ Twin .same earlier' silent t where
  enact d _ _ _ h := by
    obtain ⟨silent, hs, ht⟩ := h
    have hd : d.retimed Renaming.same.time = d := by cases d <;> rfl
    have hd' : d.retimed id = d := by cases d <;> rfl
    have hs' := hs.enact d
    have ht' := ht.enact d
    rw [hd] at hs' ht'
    rw [hd']
    exact ⟨silent.enact d, hs', ht'⟩
  progress _ _ _ h := by
    obtain ⟨silent, hs, ht⟩ := h
    exact (ht.alike.step (ht.answered .step)).1.trans (hs.alike.step (hs.answered .step)).1.symm
  again _ _ _ h := by
    obtain ⟨silent, hs, ht⟩ := h
    exact ht.alike.again.trans hs.alike.again.symm

/-- **What was let out makes no difference.** Sessions that are the same off the record answer every operation
  alike, and what can be seen of them goes on in the same way. -/
theorem OffRecord.transcript {s t : Session} (h : OffRecord s t) (numbered : s.Numbered)
    (ops : List (Int × Operation)) :
    List.Forall₂ (fun a b => b.1 = a.1 ∧ View.Parallel s.view t.view a.2 b.2)
      (s.transcript ops) (t.transcript ops) := by
  have numbered' : t.Numbered := by
    rw [h]
    exact ⟨numbered.nonempty, numbered.signal⟩
  have same : t.silent = s.silent := by
    rw [h]
    rfl
  have ht := twin_silent numbered'
  rw [same] at ht
  have hops : (ops.map fun op => (id op.1, op.2)) = ops := List.map_id ops
  have hv := (lockstep_silent s.view.uncounted t.view.uncounted).transcript
    (V := View.Parallel s.view t.view)
    (by
      rintro _ u v ⟨silent, hu, hv⟩
      exact View.parallel_of_continues hu.alike.view hv.alike.view)
    ops ⟨s.silent, twin_silent numbered, ht⟩
  rwa [hops] at hv

end Session

end Converse
