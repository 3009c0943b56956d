import Converse.Proofs.Talk.Exchange
import Converse.Proofs.Talk.Inquiry
import Converse.Proofs.Talk.Intake
import Converse.Proofs.Talk.Retrying
import Converse.Terminal.Render

/-
  What the hint beside an error is worth.

  A turn that failed last leaves the session at rest with its error (`Failing`), the error is one of those
  that can arise (`Mishap.Arises`), and with an error there is a message to send again. `hint_course` is the
  result: the user is told to try again exactly where another try is made.
-/

namespace Converse

/-- No error asks for a new token and for another try at once. -/
theorem Mishap.Arises.retryable_of_needsToken {m : Mishap} (h : m.Arises)
    (ht : m.needsToken = true) : m.retryable = false := by
  have hk : m.kind = .authentication := beq_iff_eq.mp ht
  cases h with
  | reported message kind =>
    have hk : kind = .authentication := hk
    subst hk
    rfl
  | ofFailure f =>
    have hk : f.kind = .authentication := hk
    simp [Mishap.ofFailure, hk, ErrorKind.passesByItself]
  | disorder message => cases hk

namespace Terminal

theorem hint_eq_retry_iff (m : Mishap) :
    hint m true = some "Type /retry to send the message again." ↔
      m.needsToken = false ∧ m.retryable = true := by
  unfold hint
  cases m.needsToken <;> cases m.retryable <;> simp

theorem hint_eq_none_iff (m : Mishap) (interactive : Bool) :
    hint m interactive = none ↔ m.needsToken = false ∧ m.retryable = false := by
  unfold hint
  cases m.needsToken <;> cases m.retryable <;> simp

theorem needsToken_of_hint {m : Mishap} {interactive : Bool}
    (h : hint m interactive = some
      "Verification failed. Provide a fresh token with --token or STATLINE_VERIFICATION_TOKEN.") :
    m.needsToken = true := by
  unfold hint at h
  cases ht : m.needsToken with
  | true => rfl
  | false => cases m.retryable <;> cases interactive <;> simp [ht] at h

end Terminal

namespace Session

/-! ## Errors that can arise -/

/-- The error of a session is one that can arise. -/
def Arisen (s : Session) : Prop := ∀ m, s.mishap = some m → m.Arises

theorem Arisen.of_eq {s t : Session} (h : s.Arisen) (he : t.mishap = s.mishap) : t.Arisen := by
  intro m hm
  exact h m (he ▸ hm)

theorem arisen_fail (s : Session) {m : Mishap} (h : m.Arises) : (s.fail m).Arisen := by
  intro m' hm
  cases hm
  exact h

theorem mishap_abort (s : Session) : s.abort.mishap = s.mishap := by
  rcases abort_told s with h | ⟨m, -, hm⟩
  · rw [h]
  · exact hm

theorem Arisen.intake {s t : Session} (h : s.Arisen) (hi : Intake s t) : t.Arisen := by
  cases hi with
  | abort => exact h.of_eq (mishap_abort s)
  | fail m hm _ => exact arisen_fail s hm
  | failLink f _ => exact arisen_fail _ (.ofFailure f)
  | start _ _ _ =>
    intro m hm
    cases hm
  | _ => exact h

theorem Arisen.request {s : Session} (h : s.Arisen) (text : String) : (s.request text).Arisen := by
  unfold Session.request openLink
  split
  · exact h
  · next reason _ => exact arisen_fail _ (.ofFailure (.request reason))

theorem Arisen.enact {s : Session} (h : s.Arisen) (d : Deed) : (s.enact d).Arisen := by
  cases d with
  | setClock now => exact h
  | signalStop => exact h
  | clear =>
    intro m hm
    cases hm
  | stop =>
    change s.stop.Arisen
    unfold Session.stop
    split
    · exact h
    · exact h.of_eq (mishap_abort s)
  | send text =>
    have hs : s.superseded.Arisen := by
      unfold superseded
      split
      · exact h
      · exact h.of_eq (mishap_abort (s.remark .superseded))
    exact hs.request text
  | step =>
    change s.step.2.Arisen
    rcases step_intake s with hs | ⟨u, t, hu, ht, hs⟩
    · rw [hs]
      exact h
    · rw [hs]
      have hu : u.Arisen := by cases hu <;> exact h
      exact (hu.intake ht).of_eq (t := t.publish) rfl

theorem Arisen.enactAll {s : Session} (h : s.Arisen) (ds : List Deed) : (s.enactAll ds).Arisen := by
  induction ds generalizing s with
  | nil => exact h
  | cons d ds ih => exact ih (h.enact d)

/-! ## A turn that failed last -/

/-- Where the last thing told is that a turn failed, the session rests with the error of that turn. -/
def Failing (s : Session) : Prop :=
  ∀ m, s.journal.notices.getLast? = some (.turnFailed m) → s.phase = .idle ∧ s.mishap = some m

/-- Another notice told last. -/
theorem failing_announce {s t : Session} {n : Notice}
    (hj : t.journal.notices = s.journal.notices ++ [n]) (hn : ∀ m, n ≠ .turnFailed m) : t.Failing := by
  intro m h
  rw [hj, List.getLast?_concat] at h
  exact absurd (Option.some.inj h) (hn m)

theorem failing_fail (s : Session) (m : Mishap) : (s.fail m).Failing := by
  intro m' h
  have h : (s.journal.notices ++ [Notice.turnFailed m]).getLast? = some (.turnFailed m') := h
  rw [List.getLast?_concat] at h
  cases h
  exact ⟨rfl, rfl⟩

theorem Failing.finishTool {s : Session} (h : s.Failing) (tool : String) (success : Bool)
    (summary : Option String) : (s.finishTool tool success summary).Failing := by
  unfold Session.finishTool
  split
  · exact failing_announce (n := .toolFinished _) rfl (by simp)
  · split <;> exact h

theorem Failing.abort {s : Session} (h : s.Failing) : s.abort.Failing := by
  rcases abort_told s with hs | ⟨m, hj, -⟩
  · rw [hs]
    exact h
  · exact failing_announce hj (by simp)

theorem invariant_failing : Invariant Failing where
  remark _ _ h := h
  publish _ h := h
  countDropped _ h := h
  abort _ h := h.abort
  fail s m _ _ := failing_fail s m
  complete _ _ _ _ _ := failing_announce (n := .turnFinalized _) rfl (by simp)
  startReply _ _ _ _ _ := failing_announce (n := .turnStarted _) rfl (by simp)
  grow _ _ _ _ _ _ := failing_announce (n := .delta _) rfl (by simp)
  startTool _ _ _ _ _ _ _ := failing_announce (n := .toolStarted _) rfl (by simp)
  finishTool _ _ _ tool success summary _ h := h.finishTool tool success summary
  setClock _ _ h := h
  fetched s link hl h := by
    intro m hm
    exact absurd (h m hm).1 (Phase.ne_idle_of_link? hl)
  request s text _ _ := by
    unfold request openLink
    split
    · exact failing_announce (n := .turnRequested _) rfl (by simp)
    · exact failing_fail _ _
  clear _ _ := failing_announce (n := .cleared) rfl (by simp)
  signalStop _ h := h

/-! ## Another try -/

/-- **The hint tells the truth.** Where a course ends with the failure of a turn, the user is told to try again
  exactly if another try is made then and puts a question to the server, and where the hint is another one, or
  there is none, another try does nothing. -/
theorem hint_course (matching : Matching) (transport : Transport) (mint : Mint)
    (ops : List (Int × Operation)) (m : Mishap)
    (failed : ((create matching transport mint).course ops).journal.notices.getLast? =
      some (.turnFailed m)) (now : Int) :
    let s := ((create matching transport mint).course ops).setClock now
    let again := s.perform .retry
    (Terminal.hint m true = some "Type /retry to send the message again." ↔
      again.1 = .flag true ∧ ∃ q, again.2.journal.questions = s.journal.questions ++ [q]) ∧
    (Terminal.hint m true = some
        "Verification failed. Provide a fresh token with --token or STATLINE_VERIFICATION_TOKEN." →
      again = (.flag false, s)) ∧
    (Terminal.hint m true = none → again = (.flag false, s)) := by
  intro s again
  have shaped : s.Coherent ∧ s.Shaped :=
    invariant_shaped.setClock _ now (shaped_of_course matching transport mint ops)
  have rests : s.phase = .idle ∧ s.mishap = some m :=
    invariant_failing.course ops (s := create matching transport mint) (by rintro m ⟨⟩) m failed
  have arises : m.Arises := by
    have h : (create matching transport mint).Arisen := by rintro m ⟨⟩
    refine (h.enactAll ((create matching transport mint).courseDeeds ops)) m ?_
    rw [← course_eq_enactAll]
    exact rests.2
  have resendable : s.Resendable := resendable_of_course matching transport mint ops
  obtain ⟨_, last, -, -, hlast⟩ := resendable.lastUser rests.2
  have hagain : again = (.flag m.retryable, if m.retryable then s.send last.content else s) := by
    change (Answer.flag s.retry.1, s.retry.2) = _
    rw [retry_of_failed rests.1 rests.2 hlast]
  refine ⟨?_, ?_, ?_⟩
  · rw [Terminal.hint_eq_retry_iff, hagain]
    constructor
    · rintro ⟨-, hr⟩
      refine ⟨by rw [hr], ⟨last.content, s.conversation⟩, ?_⟩
      rw [hr]
      exact (asked_send shaped.1 last.content).2
    · rintro ⟨ha, -⟩
      have hr : m.retryable = true := Answer.flag.inj ha
      refine ⟨?_, hr⟩
      cases ht : m.needsToken with
      | false => rfl
      | true => simp [arises.retryable_of_needsToken ht] at hr
  · intro h
    rw [hagain, arises.retryable_of_needsToken (Terminal.needsToken_of_hint h)]
    rfl
  · intro h
    rw [hagain, ((Terminal.hint_eq_none_iff m true).mp h).2]
    rfl

/-- A reply that breaks off: the user is told to try again, and the message is put to the server again. -/
theorem hint_course_of_reset :
    let feed := Feed.ofDeliveries
      [.event (.start "c1"), .event (.delta "Hel"), .closed (.failed (.connection "reset"))] false
    let mint : Mint := ⟨fun n => ["u1", "r1", "u2"][n]?.getD "", 0, 0⟩
    let s := (create .oldest ⟨[.accepted feed], .refused "no route"⟩ mint).course
      [(1700, .submit "Hi")]
    let again := (s.setClock 1800).perform .retry
    s.journal.notices.getLast? = some (.turnFailed (.ofFailure (.connection "reset"))) ∧
      Terminal.hint (.ofFailure (.connection "reset")) true =
        some "Type /retry to send the message again." ∧
      again.1 = .flag true ∧ ∃ q, again.2.journal.questions = s.journal.questions ++ [q] :=
  ⟨by decide, by decide, (hint_course .oldest _ _ [(1700, .submit "Hi")]
    (.ofFailure (.connection "reset")) (by decide) 1800).1.mp (by decide)⟩

end Session

end Converse
