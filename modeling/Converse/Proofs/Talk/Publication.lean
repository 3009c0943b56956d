import Converse.Proofs.Talk.Course

/-
  What a session publishes.

  A single deed publishes the snapshot that the session has after it, once, or it publishes nothing and leaves
  the snapshot as it was (`Shows`). `published_course` is the result: a watcher always finds the snapshot of
  the session, and what is taken in one thing after another is published one by one.
-/

namespace Converse.Session

/-- The snapshot that a watcher finds. Before anything is published it is the initial one. -/
def latest (s : Session) : Snapshot := s.journal.published.getLast?.getD .initial

/-- From `s` to `t` the snapshot of `t` was published and no other, or none was and nothing shows. -/
inductive Shows (s t : Session) : Prop
  | once (published : t.journal.published = s.journal.published ++ [t.snapshot])
  | nothing (published : t.journal.published = s.journal.published)
      (snapshot : t.snapshot = s.snapshot)

/-! ## What a single deed publishes -/

/-- What an event of a reply leaves alone. -/
theorem receive_frame (s : Session) (e : Reply.Event) :
    (s.receive e).dropped = s.dropped ∧ (s.receive e).journal.published = s.journal.published := by
  cases hp : s.phase with
  | idle => simp only [receive, hp]; exact ⟨rfl, rfl⟩
  | awaiting link => cases e <;> simp only [receive, hp] <;> exact ⟨rfl, rfl⟩
  | streaming link draft =>
    cases e with
    | toolEnd tool success summary =>
      simp only [receive, hp]
      exact ⟨by rw [finishTool_eq], (finishTool_frame s tool success summary).2⟩
    | _ => simp only [receive, hp]; exact ⟨rfl, rfl⟩

/-- What the end of a link leaves alone. -/
theorem close_frame (s : Session) (ending : Ending) :
    (s.close ending).dropped = s.dropped ∧
      (s.close ending).journal.published = s.journal.published := by
  cases ending with
  | aborted => exact (abort_frame s).2
  | normal => simp only [close]; split <;> exact ⟨rfl, rfl⟩
  | failed failure => simp only [close]; split <;> exact ⟨rfl, rfl⟩

/-- What publishes at its end, and at its end only, publishes one snapshot. -/
theorem published_publish {s t : Session} (h : t.journal.published = s.journal.published) :
    t.publish.journal.published = s.journal.published ++ [t.publish.snapshot] :=
  congrArg (· ++ [t.snapshot]) h

/-- Everything that is taken in publishes one snapshot, the one after it. -/
theorem published_apply (s : Session) (d : Delivery) :
    (s.apply d).journal.published = s.journal.published ++ [(s.apply d).snapshot] := by
  refine published_publish ?_
  cases d with
  | opened => rfl
  | dropped _ => rfl
  | event e => exact (receive_frame s e).2
  | closed ending => exact (close_frame s ending).2

theorem published_step {s : Session} (h : s.step.1 = .applied) :
    s.step.2.journal.published = s.journal.published ++ [s.step.2.snapshot] := by
  have hs := stepped s
  generalize s.step = r at hs h
  cases hs with
  | idle _ => cases h
  | waits _ _ _ _ _ => cases h
  | stopped _ _ _ => exact published_apply s _
  | interrupted link _ _ _ _ => exact published_apply (s.fetched link) _
  | ended link _ _ _ => exact published_apply ((s.fetched link).remark .endedSilently) _
  | delivered link d _ _ _ => exact published_apply (s.fetched link) d

/-- A message that is sent publishes one snapshot, whether or not it ends a turn and its link opens. -/
theorem published_send (s : Session) (text : String) :
    (s.send text).journal.published = s.journal.published ++ [(s.send text).snapshot] := by
  rw [send_eq]
  refine published_publish ?_
  have hr : (s.superseded.request text).journal.published = s.superseded.journal.published := by
    unfold request openLink
    split <;> rfl
  rw [hr]
  unfold superseded
  split
  · rfl
  · exact (abort_frame (s.remark .superseded)).2.2

theorem shows_enact (s : Session) (d : Deed) : Shows s (s.enact d) := by
  cases d with
  | setClock now => exact .nothing rfl rfl
  | send text => exact .once (published_send s text)
  | step =>
    by_cases h : s.step.1 = .applied
    · exact .once (published_step h)
    · have hs : s.enact .step = s := step_of_not_applied h
      rw [hs]
      exact .nothing rfl rfl
  | stop =>
    simp only [enact, stop]
    split
    · exact .nothing rfl rfl
    · exact .once (published_publish (abort_frame s).2.2)
  | clear => exact .once rfl
  | signalStop => exact .nothing rfl rfl

/-! ## What a watcher finds -/

theorem latest_of_published {s : Session} {earlier : List Snapshot} {p : Snapshot}
    (h : s.journal.published = earlier ++ [p]) : s.latest = p := by
  simp [latest, h]

/-- After a deed a watcher finds the snapshot of the session, if that was so before. -/
theorem Shows.latest {s t : Session} (h : Shows s t) (hs : s.latest = s.snapshot) :
    t.latest = t.snapshot := by
  cases h with
  | once hp => exact latest_of_published hp
  | nothing hp hsnap =>
    calc t.latest = s.latest := by rw [Session.latest, hp]; rfl
      _ = t.snapshot := by rw [hs, hsnap]

theorem latest_enactAll (ds : List Deed) {s : Session} (h : s.latest = s.snapshot) :
    (s.enactAll ds).latest = (s.enactAll ds).snapshot := by
  induction ds generalizing s with
  | nil => exact h
  | cons d ds ih => exact ih ((shows_enact s d).latest h)

/-- What is published stays published. -/
theorem published_grows (s : Session) (ds : List Deed) :
    s.journal.published <+: (s.enactAll ds).journal.published := by
  induction ds generalizing s with
  | nil => exact List.prefix_refl _
  | cons d ds ih =>
    refine List.IsPrefix.trans ?_ (ih (s.enact d))
    cases shows_enact s d with
    | once hp => exact hp ▸ List.prefix_append _ _
    | nothing hp _ => exact hp ▸ List.prefix_refl _

/-- Deeds that publish nothing leave the snapshot as it was, each of them. -/
theorem snapshot_enactAll (ds : List Deed) {s : Session}
    (h : (s.enactAll ds).journal.published = s.journal.published) :
    (s.enactAll ds).snapshot = s.snapshot := by
  induction ds generalizing s with
  | nil => rfl
  | cons d ds ih =>
    change ((s.enact d).enactAll ds).journal.published = s.journal.published at h
    have hle := (published_grows (s.enact d) ds).length_le
    cases shows_enact s d with
    | once hp =>
      rw [h, hp, List.length_append, List.length_singleton] at hle
      omega
    | nothing hp hs => exact (ih (h.trans hp.symm)).trans hs

/-! ## One thing after another -/

/-- The session after a number of steps. -/
def afterSteps (s : Session) : Nat → Session
  | 0 => s
  | n + 1 => (s.afterSteps n).step.2

theorem afterSteps_succ (s : Session) (n : Nat) : s.afterSteps (n + 1) = s.step.2.afterSteps n := by
  induction n with
  | zero => rfl
  | succ n ih => exact congrArg (fun t => t.step.2) ih

/-- From `s` to `t` a number of things were taken in, one after another, and the session was published after
  each of them and never else. -/
structure TakesIn (n : Nat) (s t : Session) : Prop where
  applied : ∀ k < n, (s.afterSteps k).step.1 = .applied
  final : t = s.afterSteps n
  published : t.journal.published =
    s.journal.published ++ (List.range n).map fun k => (s.afterSteps (k + 1)).snapshot

theorem takesIn_afterSteps {s : Session} {n : Nat}
    (h : ∀ k < n, (s.afterSteps k).step.1 = .applied) : TakesIn n s (s.afterSteps n) where
  applied := h
  final := rfl
  published := by
    induction n with
    | zero => exact (List.append_nil _).symm
    | succ n ih =>
      have hn : (s.afterSteps (n + 1)).journal.published =
          (s.afterSteps n).journal.published ++ [(s.afterSteps (n + 1)).snapshot] :=
        published_step (h n (Nat.lt_succ_self n))
      rw [hn, ih fun k hk => h k (Nat.lt_succ_of_lt hk), List.range_succ, List.map_append,
        List.append_assoc]
      rfl

/-- The things that a step takes in first and others after it. -/
theorem TakesIn.cons {n : Nat} {s t : Session} (ha : s.step.1 = .applied)
    (h : TakesIn n s.step.2 t) : TakesIn (n + 1) s t := by
  rw [h.final, ← afterSteps_succ]
  refine takesIn_afterSteps ?_
  intro k hk
  cases k with
  | zero => exact ha
  | succ k =>
    rw [afterSteps_succ]
    exact h.applied k (Nat.lt_of_succ_lt_succ hk)

theorem takesIn_zero (s : Session) : TakesIn 0 s s := takesIn_afterSteps (n := 0) (by simp)

/-- Where nothing is taken in, more steps change nothing. -/
theorem steps_of_not_applied (n : Nat) {s : Session} (h : s.step.1 ≠ .applied) :
    (steps n s).2 = s := by
  have hs := step_of_not_applied h
  fun_induction steps n s with
  | case1 s => rfl
  | case2 s => exact hs
  | case3 n s _ t ht => exact (congrArg Prod.snd ht).symm.trans hs
  | case4 n s _ r t _ ht ih =>
    have hts : t = s := (congrArg Prod.snd ht).symm.trans hs
    subst hts
    exact ih h hs

theorem takesIn_steps (count : Nat) (s : Session) :
    ∃ n ≤ count, TakesIn n s (steps count s).2 ∧
      (n < count → (steps count s).2.step.1 ≠ .applied) := by
  induction count generalizing s with
  | zero => exact ⟨0, Nat.le_refl 0, takesIn_zero s, fun h => absurd h (Nat.lt_irrefl 0)⟩
  | succ count ih =>
    by_cases ha : s.step.1 = .applied
    · obtain ⟨n, hn, ht, hl⟩ := ih s.step.2
      have hs : (steps (count + 1) s).2 = (steps count s.step.2).2 := by
        cases count with
        | zero => rfl
        | succ count =>
          have hp : s.step = (.applied, s.step.2) := Prod.ext ha rfl
          rw [steps, hp]
          simp
      rw [hs]
      exact ⟨n + 1, by omega, ht.cons ha, fun h => hl (by omega)⟩
    · rw [steps_of_not_applied _ ha]
      exact ⟨0, Nat.zero_le _, takesIn_zero s, fun _ => ha⟩

theorem takesIn_runFor (fuel : Nat) (s : Session) : ∃ n, TakesIn n s (runFor fuel s).2 := by
  induction fuel generalizing s with
  | zero => exact ⟨0, takesIn_zero s⟩
  | succ fuel ih =>
    unfold runFor
    split
    · next t ht =>
      obtain ⟨n, hn⟩ := ih t
      have ha : s.step.1 = .applied := congrArg Prod.fst ht
      have hs : s.step.2 = t := congrArg Prod.snd ht
      exact ⟨n + 1, TakesIn.cons ha (hs ▸ hn)⟩
    · next hne =>
      have ha : s.step.1 ≠ .applied := fun ha => hne s.step.2 (Prod.ext ha rfl)
      rw [step_of_not_applied ha]
      exact ⟨0, takesIn_zero s⟩

/-! ## Courses -/

theorem latest_course (matching : Matching) (transport : Transport) (mint : Mint)
    (ops : List (Int × Operation)) :
    ((create matching transport mint).course ops).latest =
      ((create matching transport mint).course ops).snapshot := by
  rw [course_eq_enactAll]
  exact latest_enactAll _ (s := create matching transport mint) rfl

theorem retry_of_false {s : Session} (h : s.retry.1 = false) : s.retry.2 = s := by
  unfold retry at h ⊢
  split at h
  · split at h
    · cases h
    · next hm => simp [hm]
  · rfl

/-- **What is published is exact.** After every course a watcher finds the snapshot of the session. A step that
  takes something in publishes one snapshot, the one after it; so several steps and a run publish the snapshots
  after the things they take in, in order, and a run goes on until nothing is left to take in. An operation that
  publishes nothing has left the snapshot as it was, as those do that find nothing to do. -/
theorem published_course (matching : Matching) (transport : Transport) (mint : Mint)
    (ops : List (Int × Operation)) :
    let s := (create matching transport mint).course ops
    s.latest = s.snapshot ∧
    (s.step.1 = .applied →
      s.step.2.journal.published = s.journal.published ++ [s.step.2.snapshot]) ∧
    (∀ count, ∃ n ≤ count, TakesIn n s (s.perform (.step count)).2 ∧
      (n < count → (s.perform (.step count)).2.step.1 ≠ .applied)) ∧
    (∃ n, TakesIn n s (s.perform .run).2 ∧ (s.perform .run).2.step.1 ≠ .applied) ∧
    (∀ op, (s.perform op).2.journal.published = s.journal.published →
      (s.perform op).2.snapshot = s.snapshot) ∧
    (s.step.1 ≠ .applied → s.step.2 = s) ∧ (s.phase = .idle → s.stop = s) ∧
    (s.retry.1 = false → s.retry.2 = s) ∧
    s.signalStop.journal.published = s.journal.published := by
  intro s
  refine ⟨latest_course matching transport mint ops, published_step,
    fun count => takesIn_steps count s, ?_, ?_, step_of_not_applied, ?_, retry_of_false, rfl⟩
  · obtain ⟨n, hn⟩ := takesIn_runFor s.stepBound s
    exact ⟨n, hn, step_run s⟩
  · intro op h
    rw [perform_eq_enactAll] at h ⊢
    exact snapshot_enactAll _ h
  · intro hp
    simp [stop, hp, Phase.isIdle]

end Converse.Session
