import Converse.Proofs.Terminal.Following

/-
  What a single message shows.

  Until a second message is sent, a session has an error exactly if it told that its turn failed (`FirstTurn`).
  `once_shown` is the result: a run for one message shows everything once and in order, and it fails exactly
  if a failure was told.
-/

namespace Converse

namespace Session

/-! ## The first turn -/

/-- That a turn failed was told. -/
def FailureTold (s : Session) : Prop := ∃ m, .turnFailed m ∈ s.journal.notices

/-- The only turn so far is under way without an error, or over. -/
structure FirstTurn (s : Session) : Prop where
  error : s.mishap.isSome = true ↔ s.FailureTold
  going : s.phase ≠ .idle → s.mishap = none

theorem failureTold_concat {s t : Session} {n : Notice}
    (hj : t.journal.notices = s.journal.notices ++ [n]) (hn : ∀ m, n ≠ .turnFailed m) :
    t.FailureTold ↔ s.FailureTold := by
  unfold FailureTold
  simp [hj, fun m => (hn m).symm]

/-- Another thing is told, and the turn goes on or ends without an error. -/
theorem FirstTurn.tell {s t : Session} {n : Notice} (h : s.FirstTurn)
    (hj : t.journal.notices = s.journal.notices ++ [n]) (hn : ∀ m, n ≠ .turnFailed m)
    (hm : t.mishap = s.mishap) (hp : t.phase ≠ .idle → s.phase ≠ .idle) : t.FirstTurn where
  error := by rw [hm, failureTold_concat hj hn, h.error]
  going ht := by rw [hm, h.going (hp ht)]

theorem firstTurn_fail (s : Session) (m : Mishap) : (s.fail m).FirstTurn where
  error := by
    have told : (s.fail m).FailureTold := ⟨m, List.mem_append_right _ List.mem_cons_self⟩
    exact ⟨fun _ => told, fun _ => rfl⟩
  going hp := absurd rfl hp

theorem FirstTurn.abort {s : Session} (h : s.FirstTurn) : s.abort.FirstTurn := by
  rcases abort_told s with hs | ⟨m, hj, hm⟩
  · rw [hs]
    exact h
  · exact h.tell hj (by simp) hm fun hp => absurd (abort_phase s) hp

theorem FirstTurn.finishTool {s : Session} (h : s.FirstTurn) (tool : String) (success : Bool)
    (summary : Option String) : (s.finishTool tool success summary).FirstTurn := by
  unfold Session.finishTool
  split
  · exact h.tell (n := .toolFinished _) rfl (by simp) rfl id
  · split <;> exact ⟨h.error, h.going⟩

theorem kept_firstTurn : Kept FirstTurn where
  remark _ _ h := ⟨h.error, h.going⟩
  publish _ h := ⟨h.error, h.going⟩
  countDropped _ h := ⟨h.error, h.going⟩
  abort _ h := h.abort
  fail s m _ _ := firstTurn_fail s m
  complete _ _ _ _ h := h.tell (n := .turnFinalized _) rfl (by simp) rfl (absurd rfl)
  startReply s link conversation hp h := by
    have hn : s.phase ≠ .idle := by simp [hp]
    exact h.tell (n := .turnStarted _) rfl (by simp) (h.going hn).symm fun _ => hn
  grow s link draft content hp h :=
    h.tell (n := .delta content) rfl (by simp) rfl fun _ => by simp [hp]
  startTool _ _ _ _ _ _ h := h.tell (n := .toolStarted _) rfl (by simp) rfl id
  finishTool _ _ _ tool success summary _ h := h.finishTool tool success summary

theorem FirstTurn.step {s : Session} (h : s.FirstTurn) : s.step.2.FirstTurn :=
  kept_firstTurn.step
    (fun _ hl _ => ⟨h.error, fun _ => h.going (Phase.ne_idle_of_link? hl)⟩) fun _ => h

/-- The first message of a session: its turn begins without an error, or it is refused. -/
theorem firstTurn_send {s : Session} (hp : s.phase = .idle) (hm : s.mishap = none)
    (hj : s.journal.notices = []) (text : String) : (s.send text).FirstTurn := by
  have hs : s.FirstTurn := ⟨by simp [FailureTold, hm, hj], fun _ => hm⟩
  have said : (s.say text).FirstTurn := hs.tell (n := .turnRequested _) rfl (by simp) rfl id
  have asked : (s.request text).FirstTurn := by
    unfold request openLink
    split
    · exact ⟨said.error, fun _ => hm⟩
    · exact firstTurn_fail _ _
  rw [send_of_idle hp]
  exact kept_firstTurn.publish _ asked

end Session

namespace Console

/-- **A single message shows everything once.** On a new session, with a link that is refused or does not
  hang and no key pressed, nothing that was told is lost, what is written is all of it in the order in which it
  was told, and the run fails exactly if it was told that the turn failed. -/
theorem once_shown (matching : Matching) (transport : Transport) (mint : Mint) (message : String)
    (ends : ∀ feed, transport.next.1 = .accepted feed → feed.hangs = false) :
    let r := (create (.create matching transport mint) false none).once message
    let told := r.2.session.journal.notices
    r.2.lost = 0 ∧
    r.2.shown = ⟨String.join (told.map fun n => (Terminal.render false n).output),
      String.join (told.map fun n => (Terminal.render false n).errors)⟩ ∧
    (r.1 = .code 1 ↔ ∃ m, .turnFailed m ∈ told) ∧ (r.1 = .code 0 ↔ ∀ m, .turnFailed m ∉ told) := by
  intro r told
  let s : Session := .create matching transport mint
  let c : Console := create s false none
  have draining : (s.send message).Draining := Session.draining_send ends message
  have rests : r.2.session = (s.send message).run.2 :=
    session_follow (c := { c with session := s.send message }) rfl
  have idle : r.2.session.phase = .idle := by
    rw [rests]
    exact draining.phase_run
  have shown : Behind 0 r.2 :=
    current_follow (c := { c with session := s.send message }) rfl
      ((behind_create s false none rfl).tells (Session.tellsAtMost_send s message)) (by omega)
      draining.step_ne_waiting
  have first : r.2.session.FirstTurn := by
    rw [rests]
    exact Session.runFor_of_step (fun _ h => h.step) _ (Session.firstTurn_send rfl rfl rfl message)
  have exit : r.1 = .code (if r.2.session.mishap.isSome then 1 else 0) := by
    change (if !r.2.session.phase.isIdle then Exit.waits else _) = _
    rw [idle]
    rfl
  refine ⟨shown.lossless, ?_, ?_, ?_⟩
  · have plain : r.2.interactive = false := (setup_followFor _ rfl).2
    have all : told.take r.2.looked = told := List.take_of_length_le shown.near
    rw [shown.shown, plain, all, Terminal.renderAll_eq]
  · rw [exit]
    refine Iff.trans ?_ first.error
    cases r.2.session.mishap <;> simp
  · rw [exit]
    have quiet : (∀ m, .turnFailed m ∉ told) ↔ ¬ r.2.session.FailureTold := by
      simp [Session.FailureTold, told]
    rw [quiet, ← first.error]
    cases r.2.session.mishap <;> simp

/-- A reply that the server breaks off: its text, then the error and what can be done, and the run fails. -/
theorem once_shown_of_error :
    let feed := Feed.ofDeliveries
      [.event (.start "c1"), .event (.delta "Hel"), .event (.error "down" .agent)] false
    let transport : Transport := ⟨[.accepted feed], .refused "no route"⟩
    let mint : Mint := ⟨fun n => ["u1", "r1"][n]?.getD "", 1700, 0⟩
    let r := (create (.create .oldest transport mint) false none).once "Hi"
    (∀ feed, transport.next.1 = .accepted feed → feed.hangs = false) ∧ r.2.lost = 0 ∧
      r.2.shown =
        ⟨"Hel", "\nError: down (AGENT_ERROR)\nThe request may succeed if you try again.\n"⟩ ∧
      r.1 = .code 1 := by
  intro feed transport mint r
  have ends : ∀ feed, transport.next.1 = .accepted feed → feed.hangs = false := by
    rintro _ ⟨⟩
    rfl
  obtain ⟨lossless, shown, failed, -⟩ := once_shown .oldest transport mint "Hi" ends
  exact ⟨ends, lossless, shown.trans (by decide),
    failed.mpr ⟨.reported "down" .agent, by decide⟩⟩

end Console

end Converse
