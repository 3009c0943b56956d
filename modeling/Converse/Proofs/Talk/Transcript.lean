import Converse.Proofs.Talk.Course
import Mathlib.Data.List.Forall2

/-
  What is seen of a session while it is used, and two sessions that are used in the same way.

  `transcript` lists after every operation its answer and all that can be seen of the session. `Lockstep` is a
  relation of two sessions that their deeds keep; it may speak of the deeds that are still to come.
  `Lockstep.transcript` is the result: such sessions give transcripts that fit together, entry by entry.
-/

namespace Converse

/-- All that can be seen of a session from outside. -/
structure View where
  snapshot : Snapshot
  notices : List Notice
  questions : List Question
  published : List Snapshot
  running : Bool
  dropped : Nat
  /-- For every request so far, whether its signal has fired. -/
  cancelled : List Bool

namespace Session

def view (s : Session) : View :=
  { snapshot := s.snapshot
    notices := s.journal.notices
    questions := s.journal.questions
    published := s.journal.published
    running := s.switch.running
    dropped := s.dropped
    cancelled := s.switch.fired.tail }

/-- The answer of every operation, and what can be seen after it. -/
def transcript (s : Session) : List (Int × Operation) → List (Answer × View)
  | [] => []
  | (now, op) :: rest =>
    let r := (s.setClock now).perform op
    (r.1, r.2.view) :: r.2.transcript rest

/-! ## What a retry sends -/

/-- The message that a retry would send again. -/
def again (s : Session) : Option String :=
  match s.phase, s.mishap, s.history.lastUser with
  | .idle, some m, some last => if m.retryable then some last.content else none
  | _, _, _ => none

theorem retry_eq (s : Session) :
    s.retry = match s.again with
      | some text => (true, s.send text)
      | none => (false, s) := by
  unfold retry again
  cases s.phase with
  | idle =>
    cases s.mishap with
    | none => rfl
    | some m =>
      cases s.history.lastUser with
      | none => rfl
      | some last => cases hr : m.retryable <;> simp [hr]
  | _ => rfl

theorem deeds_retry (s : Session) :
    s.deeds .retry = match s.again with
      | some text => [.send text]
      | none => [] := by
  unfold deeds again
  rw [retry_eq, again]
  cases s.phase with
  | idle =>
    cases s.mishap with
    | none => rfl
    | some m =>
      cases s.history.lastUser with
      | none => rfl
      | some last => cases hr : m.retryable <;> simp [hr]
  | _ => rfl

/-- Fuel beyond the bound makes no difference to the deeds of a run either. -/
theorem runDeeds_congr {m n : Nat} {s : Session} (hm : s.stepBound ≤ m) (hn : s.stepBound ≤ n) :
    runDeeds m s = runDeeds n s := by
  induction m generalizing n s with
  | zero =>
    have := stepBound_pos s
    omega
  | succ m ih =>
    cases n with
    | zero =>
      have := stepBound_pos s
      omega
    | succ n =>
      unfold runDeeds
      split
      · next t ht =>
        have hlt := stepBound_step ht
        rw [ih (n := n) (by omega) (by omega)]
      · rfl

/-! ## Steps and runs, one step at a time -/

theorem steps_waiting {n : Nat} {s : Session} (h : s.step.1 = .waiting) :
    steps (n + 1) s = (.pending, s.step.2) ∧ stepDeeds (n + 1) s = [.step] := by
  have hs : s.step = (.waiting, s.step.2) := Prod.ext h rfl
  refine ⟨?_, by rw [stepDeeds, hs]⟩
  cases n with
  | zero => rw [steps, h]; rfl
  | succ n => rw [steps, hs]; simp

/-- A step of several that is not the last one. -/
theorem steps_going {n : Nat} {s : Session} (h : s.step.1 ≠ .waiting) :
    steps (n + 2) s = steps (n + 1) s.step.2 ∧
      stepDeeds (n + 1) s = .step :: stepDeeds n s.step.2 := by
  rcases hs : s.step with ⟨p, t⟩
  rw [hs] at h
  cases p with
  | waiting => exact absurd rfl h
  | _ => exact ⟨by rw [steps, hs]; simp, by rw [stepDeeds, hs]⟩

theorem runFor_applied {n : Nat} {s : Session} (h : s.step.1 = .applied) :
    runFor (n + 1) s = runFor n s.step.2 ∧
      runDeeds (n + 1) s = .step :: runDeeds n s.step.2 := by
  have hs : s.step = (.applied, s.step.2) := Prod.ext h rfl
  exact ⟨by rw [runFor, hs], by rw [runDeeds, hs]⟩

theorem runFor_of_not_applied {n : Nat} {s : Session} (h : s.step.1 ≠ .applied) :
    runFor (n + 1) s = s.step ∧ runDeeds (n + 1) s = [.step] := by
  rcases hs : s.step with ⟨p, t⟩
  rw [hs] at h
  cases p with
  | applied => exact absurd rfl h
  | _ => exact ⟨by rw [runFor, hs], by rw [runDeeds, hs]⟩

/-! ## Two sessions in step -/

/-- The deed at a time of another clock. -/
def Deed.retimed (time : Int → Int) : Deed → Deed
  | .setClock now => .setClock (time now)
  | d => d

theorem Deed.isQuiet_retimed (time : Int → Int) (d : Deed) :
    (d.retimed time).isQuiet = d.isQuiet := by
  cases d <;> rfl

/-- A relation of two sessions that every deed keeps. It may depend on the deeds still to come; the clock of
  the second session may be another one. -/
structure Lockstep (time : Int → Int) (R : List Deed → Session → Session → Prop) : Prop where
  enact : ∀ d ds s t, R (d :: ds) s t → R ds (s.enact d) (t.enact (d.retimed time))
  progress : ∀ ds s t, R (.step :: ds) s t → t.step.1 = s.step.1
  again : ∀ ds s t, R ds s t → t.again = s.again

namespace Lockstep

variable {time : Int → Int} {R : List Deed → Session → Session → Prop} (k : Lockstep time R)

include k

theorem step {ds : List Deed} {s t : Session} (h : R (.step :: ds) s t) :
    t.step.1 = s.step.1 ∧ R ds s.step.2 t.step.2 :=
  ⟨k.progress ds s t h, k.enact .step ds s t h⟩

theorem steps (n : Nat) {ds : List Deed} {s t : Session} (h : R (stepDeeds n s ++ ds) s t) :
    (Session.steps n t).1 = (Session.steps n s).1 ∧
      R ds (Session.steps n s).2 (Session.steps n t).2 := by
  induction n generalizing s t with
  | zero => exact ⟨rfl, h⟩
  | succ n ih =>
    by_cases hw : s.step.1 = .waiting
    · rw [(steps_waiting hw).2] at h
      obtain ⟨hp, hr⟩ := k.step h
      rw [(steps_waiting hw).1, (steps_waiting (hp.trans hw)).1]
      exact ⟨rfl, hr⟩
    · rw [(steps_going hw).2] at h
      obtain ⟨hp, hr⟩ := k.step h
      cases n with
      | zero => exact ⟨congrArg Progress.stepAnswer hp, hr⟩
      | succ n =>
        rw [(steps_going hw).1, (steps_going (hp ▸ hw)).1]
        exact ih hr

theorem runFor (n : Nat) {ds : List Deed} {s t : Session} (h : R (runDeeds n s ++ ds) s t) :
    (Session.runFor n t).1 = (Session.runFor n s).1 ∧
      R ds (Session.runFor n s).2 (Session.runFor n t).2 := by
  induction n generalizing s t with
  | zero => exact ⟨rfl, h⟩
  | succ n ih =>
    by_cases ha : s.step.1 = .applied
    · rw [(runFor_applied ha).2] at h
      obtain ⟨hp, hr⟩ := k.step h
      rw [(runFor_applied ha).1, (runFor_applied (hp.trans ha)).1]
      exact ih hr
    · rw [(runFor_of_not_applied ha).2] at h
      obtain ⟨hp, hr⟩ := k.step h
      rw [(runFor_of_not_applied ha).1, (runFor_of_not_applied (hp ▸ ha)).1]
      exact ⟨hp, hr⟩

/-- The bounds of the two runs may differ, but neither cuts its run short. -/
theorem run {ds : List Deed} {s t : Session} (h : R (runDeeds s.stepBound s ++ ds) s t) :
    t.run.1 = s.run.1 ∧ R ds s.run.2 t.run.2 := by
  obtain ⟨n, hs, ht⟩ : ∃ n, s.stepBound ≤ n ∧ t.stepBound ≤ n :=
    ⟨_, Nat.le_max_left _ _, Nat.le_max_right _ _⟩
  rw [runDeeds_congr (Nat.le_refl _) hs] at h
  have hr := k.runFor n h
  rwa [← runFor_congr (Nat.le_refl _) hs, ← runFor_congr (Nat.le_refl _) ht] at hr

theorem perform (op : Operation) {ds : List Deed} {s t : Session} (h : R (s.deeds op ++ ds) s t) :
    (t.perform op).1 = (s.perform op).1 ∧ R ds (s.perform op).2 (t.perform op).2 := by
  cases op with
  | send text => exact ⟨rfl, k.enact (.send text) ds s t h⟩
  | step count => exact k.steps count h
  | run =>
    obtain ⟨hp, hr⟩ := k.run h
    exact ⟨congrArg Progress.runAnswer hp, hr⟩
  | submit text =>
    obtain ⟨hp, hr⟩ := k.run (k.enact (.send text) _ s t h)
    exact ⟨congrArg Progress.runAnswer hp, hr⟩
  | retry =>
    have ha := k.again _ s t h
    rw [deeds_retry] at h
    simp only [Session.perform]
    rw [retry_eq, retry_eq, ha]
    cases hs : s.again with
    | none =>
      rw [hs] at h
      exact ⟨rfl, h⟩
    | some text =>
      rw [hs] at h
      exact ⟨rfl, k.enact (.send text) ds s t h⟩
  | stop => exact ⟨rfl, k.enact .stop ds s t h⟩
  | clear => exact ⟨rfl, k.enact .clear ds s t h⟩
  | signalStop => exact ⟨rfl, k.enact .signalStop ds s t h⟩

/-- **Sessions in step give transcripts that fit together**: after every operation the answers are the same,
  and what can be seen fits if that follows from the relation. -/
theorem transcript {V : View → View → Prop} (view : ∀ ds s t, R ds s t → V s.view t.view)
    (ops : List (Int × Operation)) {s t : Session} (h : R (s.courseDeeds ops) s t) :
    List.Forall₂ (fun a b => b.1 = a.1 ∧ V a.2 b.2) (s.transcript ops)
      (t.transcript (ops.map fun op => (time op.1, op.2))) := by
  induction ops generalizing s t with
  | nil => exact .nil
  | cons o ops ih =>
    obtain ⟨now, op⟩ := o
    have hc := k.enact (.setClock now) _ s t h
    obtain ⟨ha, hr⟩ := k.perform op hc
    exact .cons ⟨ha, view _ _ _ hr⟩ (ih hr)

end Lockstep

end Session

end Converse
