import Converse.Proofs.Talk.Course

/-
  What a session makes of a single delivery.

  `Intake` has a case for each kind of change that a delivery can bring about, with the error if it is a
  failure. `step_intake` is the result: a step is one such change, made where the link was asked, or it is
  nothing at all.
-/

namespace Converse

/-- Where errors come from: the server reports them, the link fails, or the server breaks the order of
  events. -/
inductive Mishap.Arises : Mishap → Prop
  | reported (message : String) (kind : ErrorKind) : Arises (.reported message kind)
  | ofFailure (f : Failure) : Arises (.ofFailure f)
  | disorder (message : String) : Arises (.disorder message)

namespace Session

/-- All that a session can make of a delivery, before it publishes. -/
inductive Intake (s : Session) : Session → Prop
  /-- At most a count and a line in the log, which never says that a turn was superseded. -/
  | quiet (dropped : Nat) (remarks : List Remark)
      (hr : .superseded ∈ remarks → .superseded ∈ s.journal.remarks) :
      Intake s { s with dropped := dropped, journal := { s.journal with remarks := remarks } }
  | abort : Intake s s.abort
  | fail (m : Mishap) (hm : m.Arises) (hp : s.phase ≠ .idle) : Intake s (s.fail m)
  | failLink (f : Failure) (hp : s.phase ≠ .idle) :
      Intake s ((s.remark .linkFailed).fail (.ofFailure f))
  | start (link : Link) (conversation : String) (hp : s.phase = .awaiting link) :
      Intake s (s.startReply link conversation)
  | grow (link : Link) (draft : Message) (content : String) (hp : s.phase = .streaming link draft) :
      Intake s
        ({ s with phase := .streaming link (draft.append content) }.announce (.delta content))
  | startTool (link : Link) (draft : Message) (tool : String) (arguments : Json.Members)
      (hp : s.phase = .streaming link draft) : Intake s (s.startTool tool arguments)
  | finishTool (link : Link) (draft : Message) (r : ToolRun × Toolbox)
      (hp : s.phase = .streaming link draft) :
      Intake s (({ s with tools := r.2 }.remark .toolFinished).announce (.toolFinished r.1))
  | complete (link : Link) (draft : Message) (hp : s.phase = .streaming link draft) :
      Intake s (s.complete draft)

theorem Intake.remark (s : Session) {r : Remark} (hr : r ≠ .superseded) : Intake s (s.remark r) :=
  .quiet s.dropped _ (by simp [hr.symm])

theorem Intake.refl (s : Session) : Intake s s := .quiet s.dropped s.journal.remarks id

theorem intake_finishTool {s : Session} {link : Link} {draft : Message}
    (hp : s.phase = .streaming link draft) (tool : String) (success : Bool)
    (summary : Option String) : Intake s (s.finishTool tool success summary) := by
  unfold Session.finishTool
  split
  · next r _ => exact .finishTool link draft r hp
  · split
    · exact .quiet s.dropped _ (by simp [Session.remark])
    · exact .remark s (by simp)

theorem intake_receive (s : Session) (e : Reply.Event) : Intake s (s.receive e) := by
  cases hp : s.phase with
  | idle =>
    simp only [receive, hp]
    exact .remark s (by simp)
  | awaiting link =>
    have hn : s.phase ≠ .idle := by simp [hp]
    cases e with
    | start conversation =>
      simp only [receive, hp]
      exact .start link conversation hp
    | error message kind =>
      simp only [receive, hp]
      exact .fail _ (.reported message kind) hn
    | _ =>
      simp only [receive, hp]
      exact .fail _ (.disorder _) hn
  | streaming link draft =>
    have hn : s.phase ≠ .idle := by simp [hp]
    cases e with
    | start _ =>
      simp only [receive, hp]
      exact .fail _ (.disorder _) hn
    | error message kind =>
      simp only [receive, hp]
      exact .fail _ (.reported message kind) hn
    | delta content =>
      simp only [receive, hp]
      exact .grow link draft content hp
    | toolStart tool arguments =>
      simp only [receive, hp]
      exact .startTool link draft tool arguments hp
    | toolEnd tool success summary =>
      simp only [receive, hp]
      exact intake_finishTool hp tool success summary
    | stop =>
      simp only [receive, hp]
      exact .complete link draft hp

theorem intake_close (s : Session) (ending : Ending) : Intake s (s.close ending) := by
  cases ending with
  | aborted => exact .abort
  | normal =>
    simp only [close]
    split
    · exact .refl s
    · next hi => exact .fail _ (.disorder _) (mt Phase.isIdle_iff.mpr hi)
  | failed failure =>
    simp only [close]
    split
    · exact .refl s
    · next hi => exact .failLink failure (mt Phase.isIdle_iff.mpr hi)

/-- **What a session takes in is one change**, and the state after it is published. -/
theorem intake_apply (s : Session) (d : Delivery) : ∃ t, Intake s t ∧ s.apply d = t.publish := by
  cases d with
  | opened => exact ⟨_, .remark s (by simp), rfl⟩
  | dropped _ => exact ⟨_, .quiet (s.dropped + 1) _ (by simp), rfl⟩
  | event e => exact ⟨_, intake_receive s e, rfl⟩
  | closed ending => exact ⟨_, intake_close s ending, rfl⟩

/-- The session at the point of a step where it takes something in. -/
inductive Polled (s : Session) : Session → Prop
  | unasked : Polled s s
  | asked (link : Link) (hl : s.phase.link? = some link) : Polled s (s.fetched link)
  | ended (link : Link) (hl : s.phase.link? = some link) :
      Polled s ((s.fetched link).remark .endedSilently)

/-- **A step is one change or nothing.** -/
theorem step_intake (s : Session) :
    s.step.2 = s ∨ ∃ u t, Polled s u ∧ Intake u t ∧ s.step.2 = t.publish := by
  have takes {u : Session} (hu : Polled s u) (d : Delivery) :
      ∃ u' t, Polled s u' ∧ Intake u' t ∧ u.apply d = t.publish := by
    obtain ⟨t, ht, hd⟩ := intake_apply u d
    exact ⟨u, t, hu, ht, hd⟩
  have hs := stepped s
  generalize s.step = r at hs
  cases hs with
  | idle hp => exact .inl rfl
  | waits link hl hf hx hi => exact .inl rfl
  | stopped link hl hf => exact .inr (takes .unasked (.closed .aborted))
  | interrupted link hl hf hx hi => exact .inr (takes (.asked link hl) (.closed .aborted))
  | ended link hl hf hx => exact .inr (takes (.ended link hl) (.closed .normal))
  | delivered link d hl hf hx => exact .inr (takes (.asked link hl) d)

/-! ## How much is told -/

/-- From the one session to the other at most so many things are told. -/
def TellsAtMost (k : Nat) (s t : Session) : Prop :=
  ∃ ns, t.journal.notices = s.journal.notices ++ ns ∧ ns.length ≤ k

theorem tellsAtMost_of_eq {s t : Session} (h : t.journal.notices = s.journal.notices) (k : Nat) :
    TellsAtMost k s t := ⟨[], by rw [h, List.append_nil], Nat.zero_le k⟩

theorem tellsAtMost_of_concat {s t : Session} {n : Notice}
    (h : t.journal.notices = s.journal.notices ++ [n]) : TellsAtMost 1 s t := ⟨[n], h, Nat.le_refl 1⟩

theorem TellsAtMost.trans {k l : Nat} {s t u : Session} (h : TellsAtMost k s t)
    (h' : TellsAtMost l t u) : TellsAtMost (k + l) s u := by
  obtain ⟨ns, hj, hk⟩ := h
  obtain ⟨ns', hj', hl⟩ := h'
  refine ⟨ns ++ ns', by rw [hj', hj, List.append_assoc], ?_⟩
  rw [List.length_append]
  omega

/-- The end of a turn that is not wanted any more is told, if there is a turn, and it is no error. -/
theorem abort_told (s : Session) : s.abort = s ∨
    ∃ m, s.abort.journal.notices = s.journal.notices ++ [.turnCancelled m] ∧
      s.abort.mishap = s.mishap := by
  unfold abort
  split
  · exact .inl rfl
  · exact .inr ⟨none, rfl, rfl⟩
  · split <;> exact .inr ⟨_, rfl, rfl⟩

theorem tellsAtMost_abort (s : Session) : TellsAtMost 1 s s.abort := by
  rcases abort_told s with h | ⟨m, hj, -⟩
  · rw [h]
    exact tellsAtMost_of_eq rfl 1
  · exact tellsAtMost_of_concat hj

theorem Intake.tellsAtMost {s t : Session} (h : Intake s t) : TellsAtMost 1 s t := by
  cases h with
  | quiet _ _ _ => exact tellsAtMost_of_eq rfl 1
  | abort => exact tellsAtMost_abort s
  | fail m _ _ => exact tellsAtMost_of_concat (n := .turnFailed m) rfl
  | failLink f _ => exact tellsAtMost_of_concat (n := .turnFailed _) rfl
  | start _ _ _ => exact tellsAtMost_of_concat (n := .turnStarted _) rfl
  | grow _ _ _ _ => exact tellsAtMost_of_concat (n := .delta _) rfl
  | startTool _ _ _ _ _ => exact tellsAtMost_of_concat (n := .toolStarted _) rfl
  | finishTool _ _ _ _ => exact tellsAtMost_of_concat (n := .toolFinished _) rfl
  | complete _ _ _ => exact tellsAtMost_of_concat (n := .turnFinalized _) rfl

/-- Each step tells at most one thing. -/
theorem tellsAtMost_step (s : Session) : TellsAtMost 1 s s.step.2 := by
  rcases step_intake s with hs | ⟨u, t, hu, ht, hs⟩
  · rw [hs]
    exact tellsAtMost_of_eq rfl 1
  · have hj : u.journal.notices = s.journal.notices := by cases hu <;> rfl
    obtain ⟨ns, hns, hlen⟩ := ht.tellsAtMost
    exact ⟨ns, by rw [hs, ← hj, ← hns]; rfl, hlen⟩

/-- A message that is sent tells of its turn, of its refusal if it is refused, and of the end of a turn that
  it supersedes. -/
theorem tellsAtMost_send (s : Session) (text : String) : TellsAtMost 3 s (s.send text) := by
  have ends : TellsAtMost 1 s s.superseded := by
    unfold superseded
    split
    · exact tellsAtMost_of_eq rfl 1
    · exact tellsAtMost_abort (s.remark .superseded)
  have asks (u : Session) : TellsAtMost 2 u (u.request text) := by
    have said : TellsAtMost 1 u (u.say text) := tellsAtMost_of_concat (n := .turnRequested _) rfl
    unfold request openLink
    split
    · exact said.trans (tellsAtMost_of_eq rfl 1)
    · exact said.trans (tellsAtMost_of_concat (n := .turnFailed _) rfl)
  exact ends.trans (asks s.superseded)

end Session

end Converse
