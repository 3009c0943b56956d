import Converse.Proofs.Talk.Exchange
import Converse.Proofs.Talk.FreshStart
import Converse.Proofs.Talk.Publication

/-
  Another try.

  While there is an error, the history ends with a message of the user (`Resendable`): nothing is kept of a
  turn that failed, and the next reply that starts clears the error. `retried_course` is the result: another
  try sends that message and does nothing else, or it does nothing at all.
-/

namespace Converse

theorem History.lastUser_concat {u : Message} (hu : u.role = .user) (earlier : History) :
    History.lastUser (earlier ++ [u]) = some u := by
  simp [History.lastUser, hu]

namespace Session

/-- The message of the user is the last one, and no reply stands behind it. -/
def EndsWithUser (s : Session) : Prop := ∃ earlier u, s.history = earlier ++ [u] ∧ u.role = .user

/-- Where there is an error, the message that it left without a reply is the last one. -/
def Resendable (s : Session) : Prop := s.mishap.isSome = true → s.EndsWithUser

theorem resendable_of_none {s : Session} (h : s.mishap = none) : s.Resendable := by
  intro hm
  simp [h] at hm

/-- The turn under way has its message at the end of the history. -/
theorem Shaped.endsWithUser {s : Session} (h : s.Shaped) (hp : s.phase ≠ .idle) :
    s.EndsWithUser := by
  obtain ⟨xs, u, hx, -⟩ := h.pending hp
  have hu : (⟨u, none⟩ : Exchange) ∈ s.exchanged := hx ▸ List.mem_append_right _ List.mem_cons_self
  refine ⟨xs.flatMap Exchange.messages, u, ?_, (h.cast _ hu).question⟩
  rw [h.history, hx]
  simp [Exchange.messages]

theorem Resendable.abort {s : Session} (h : s.Resendable) (hc : s.Coherent) :
    s.abort.Resendable := by
  unfold Session.abort
  split
  · exact h
  · exact h
  · next link draft hp =>
    -- a reply may be kept, but then there is no error
    split
    · exact h
    · exact resendable_of_none (hc.mishap_eq_none hp)

theorem resendable_request (s : Session) (text : String) : (s.request text).Resendable := by
  intro _
  refine ⟨s.history, .user s.freshId s.mint.now text, ?_, rfl⟩
  unfold request openLink
  split <;> rfl

theorem invariant_resendable : Invariant fun s => (s.Coherent ∧ s.Shaped) ∧ s.Resendable where
  remark s r h := ⟨invariant_shaped.remark s r h.1, h.2⟩
  publish s h := ⟨invariant_shaped.publish s h.1, h.2⟩
  countDropped s h := ⟨invariant_shaped.countDropped s h.1, h.2⟩
  abort s h := ⟨invariant_shaped.abort s h.1, h.2.abort h.1.1⟩
  fail s m hp h := ⟨invariant_shaped.fail s m hp h.1, fun _ => h.1.2.endsWithUser hp⟩
  complete s link draft hp h :=
    ⟨invariant_shaped.complete s link draft hp h.1,
      resendable_of_none (h.1.1.mishap_eq_none hp)⟩
  startReply s link conversation hp h :=
    ⟨invariant_shaped.startReply s link conversation hp h.1, resendable_of_none rfl⟩
  grow s link draft content hp h := ⟨invariant_shaped.grow s link draft content hp h.1, h.2⟩
  startTool s link draft tool arguments hp h :=
    ⟨invariant_shaped.startTool s link draft tool arguments hp h.1, h.2⟩
  finishTool s link draft tool success summary hp h := by
    refine ⟨invariant_shaped.finishTool s link draft tool success summary hp h.1, ?_⟩
    rw [finishTool_eq]
    exact h.2
  setClock s now h := ⟨invariant_shaped.setClock s now h.1, h.2⟩
  fetched s link hl h := ⟨invariant_shaped.fetched s link hl h.1, h.2⟩
  request s text hp h := ⟨invariant_shaped.request s text hp h.1, resendable_request s text⟩
  clear s h := ⟨invariant_shaped.clear s h.1, resendable_of_none rfl⟩
  signalStop s h := ⟨invariant_shaped.signalStop s h.1, h.2⟩

theorem resendable_of_course (matching : Matching) (transport : Transport) (mint : Mint)
    (ops : List (Int × Operation)) : ((create matching transport mint).course ops).Resendable :=
  (invariant_resendable.course ops
    ⟨⟨coherent_create matching transport mint, shaped_create matching transport mint⟩,
      resendable_of_none rfl⟩).2

/-! ## What another try does -/

/-- What another try does where the session rests with an error and there is a message to send again. -/
theorem retry_of_failed {s : Session} {m : Mishap} {last : Message} (hp : s.phase = .idle)
    (hm : s.mishap = some m) (hl : s.history.lastUser = some last) :
    s.retry = (m.retryable, if m.retryable then s.send last.content else s) := by
  unfold retry
  rw [hp, hm, hl]
  cases hr : m.retryable <;> simp [hr]

/-- Where there is no error at rest, another try does nothing. -/
theorem retry_of_unfailed {s : Session} (h : s.phase = .idle → s.mishap = none) :
    s.retry = (false, s) := by
  unfold retry
  split
  · next hp hm _ =>
    rw [h hp] at hm
    cases hm
  · rfl

theorem Resendable.lastUser {s : Session} (h : s.Resendable) {m : Mishap} (hm : s.mishap = some m) :
    ∃ earlier u, s.history = earlier ++ [u] ∧ u.role = .user ∧ s.history.lastUser = some u := by
  obtain ⟨earlier, u, hh, hu⟩ := h (by simp [hm])
  exact ⟨earlier, u, hh, hu, hh ▸ History.lastUser_concat hu earlier⟩

theorem Resendable.retry_iff {s : Session} (h : s.Resendable) :
    s.retry.1 = true ↔ s.phase = .idle ∧ ∃ m, s.mishap = some m ∧ m.retryable = true := by
  constructor
  · intro hr
    by_cases hn : s.phase = .idle → s.mishap = none
    · rw [retry_of_unfailed hn] at hr
      cases hr
    · obtain ⟨hp, hn⟩ := Classical.not_imp.mp hn
      obtain ⟨m, hm⟩ := Option.ne_none_iff_exists'.mp hn
      obtain ⟨_, _, _, _, hl⟩ := h.lastUser hm
      rw [retry_of_failed hp hm hl] at hr
      exact ⟨hp, m, hm, hr⟩
  · rintro ⟨hp, m, hm, hr⟩
    obtain ⟨_, _, _, _, hl⟩ := h.lastUser hm
    rw [retry_of_failed hp hm hl]
    exact hr

theorem Resendable.retry {s : Session} (h : s.Resendable) (hr : s.retry.1 = true) :
    ∃ earlier u, s.history = earlier ++ [u] ∧ u.role = .user ∧ s.history.lastUser = some u ∧
      s.retry.2 = s.send u.content := by
  obtain ⟨hp, m, hm, hr⟩ := h.retry_iff.mp hr
  obtain ⟨earlier, u, hh, hu, hl⟩ := h.lastUser hm
  refine ⟨earlier, u, hh, hu, hl, ?_⟩
  rw [retry_of_failed hp hm hl, if_pos hr]

/-- **Another try is all or nothing.** In every reachable session with an error the last message is the user's.
  Another try is made exactly at rest after an error that may pass: then it is that message that is sent, just as
  by `send`. Otherwise nothing changes but the time, now or later. -/
theorem retried_course (matching : Matching) (transport : Transport) (mint : Mint)
    (ops : List (Int × Operation)) (now : Int) :
    let s := (create matching transport mint).course ops
    let answer := ((s.setClock now).perform .retry).1
    let retried := s.course [(now, .retry)]
    (s.mishap.isSome = true → s.EndsWithUser) ∧
    (answer = .flag true ↔ s.phase = .idle ∧ ∃ m, s.mishap = some m ∧ m.retryable = true) ∧
    (answer = .flag true → ∃ earlier u, s.history = earlier ++ [u] ∧ u.role = .user ∧
      s.history.lastUser = some u ∧ retried = s.course [(now, .send u.content)]) ∧
    (answer ≠ .flag true → answer = .flag false ∧ retried = s.setClock now ∧
      retried.view = s.view ∧ ∀ later, retried.transcript later = s.transcript later) := by
  intro s answer retried
  have h : s.Resendable := resendable_of_course matching transport mint ops
  have hs : (s.setClock now).Resendable := h
  have answer_iff : answer = .flag true ↔ (s.setClock now).retry.1 = true := by
    simp [answer, perform]
  refine ⟨h, answer_iff.trans hs.retry_iff, fun ha => hs.retry (answer_iff.mp ha), ?_⟩
  intro ha
  have hr : (s.setClock now).retry.1 = false := by simpa using mt answer_iff.mpr ha
  have nothing : retried = s.setClock now := retry_of_false hr
  refine ⟨congrArg Answer.flag hr, nothing, ?_, ?_⟩
  · rw [nothing]
    rfl
  · intro later
    rw [nothing, transcript_setClock]

/-- A request that is refused and then sent again in another turn, which is stopped: it is the message of that
  turn that another try sends. -/
theorem retried_course_of_stop :
    let start := create .oldest ⟨[.refused "no route", .accepted .closed], .refused "busy"⟩
      ⟨fun n => ["u1", "u2", "u3"][n]?.getD "", 0, 0⟩
    let s := start.course [(1700, .send "Hi"), (1800, .send "Again"), (1900, .stop)]
    s.phase = .idle ∧ s.history.lastUser = some (.user "u2" 1800 "Again") ∧
      s.course [(2000, .retry)] = s.course [(2000, .send "Again")] := by
  intro start s
  obtain ⟨-, made, sends, -⟩ := retried_course .oldest
    ⟨[.refused "no route", .accepted .closed], .refused "busy"⟩
    ⟨fun n => ["u1", "u2", "u3"][n]?.getD "", 0, 0⟩
    [(1700, .send "Hi"), (1800, .send "Again"), (1900, .stop)] 2000
  have hl : s.history.lastUser = some (.user "u2" 1800 "Again") := by decide
  obtain ⟨_, u, -, -, hu, sent⟩ := sends (made.mpr ⟨by decide, ⟨_, .unexpected, true⟩, rfl, rfl⟩)
  cases hu.symm.trans hl
  exact ⟨by decide, hl, sent⟩

end Session

end Converse
