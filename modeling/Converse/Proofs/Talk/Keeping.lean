import Converse.Proofs.Talk.Coherence
import Converse.Proofs.Talk.Sending

/-
  A part of a reply beside a whole one.

  A turn whose reply grows can end in two ways that keep it: the reply ends, or the turn is aborted.
  `kept_as_ended_course` is the result: the two come to the same session if there is text, and what is told of
  it is all that differs. Without text the reply is kept only if it ended.
-/

namespace Converse.Session

variable {s : Session} {link : Link} {draft : Message}

/-! ## A reply that ends -/

/-- What was still to come over the link does not matter to a turn that is left, nor whether its signal has
  fired already. -/
theorem leave_congr (hl : s.phase.link? = some link) (feed : Feed) {switch : Switch}
    (hs : switch.fire link.signal = s.switch.fire link.signal) :
    ({ s with phase := s.phase.withLink { link with feed := feed }, switch := switch } : Session).leave
      = s.leave := by
  unfold leave
  rw [Phase.link?_withLink (Phase.ne_idle_of_link? hl), hl]
  dsimp only
  rw [hs]

theorem apply_stop (hp : s.phase = .streaming link draft) :
    s.apply (.event .stop) = (s.complete draft).publish := by
  simp only [apply_event, receive, hp]

theorem step_of_stop (hp : s.phase = .streaming link draft)
    (hf : s.switch.hasFired link.signal = false) {feed : Feed}
    (hx : feed.fetch.1 = .delivery (.event .stop)) :
    (s.refed feed).step = (.applied, s.apply (.event .stop)) := by
  have hl : s.phase.link? = some link := by
    rw [hp]
    rfl
  have hw : s.phase.withLink { link with feed := feed.fetch.2.1 } =
      .streaming { link with feed := feed.fetch.2.1 } draft := by
    rw [hp]
    rfl
  rw [step_refed hl hf hx, apply_stop hp, apply_stop hw]
  unfold complete
  rw [leave_congr hl _ (s.switch.fire_fired link.signal _)]

/-! ## Ended, or aborted -/

theorem kept_of_streaming (hp : s.phase = .streaming link draft) :
    s.kept = if draft.content.isEmpty then none else some (draft.finish s.tools.runs) := by
  unfold kept
  rw [hp]

theorem Numbered.complete (h : s.Numbered) (draft : Message) : (s.complete draft).publish.Numbered :=
  numbered_of_idle rfl (Nat.lt_of_lt_of_eq h.nonempty (length_fired_leave s).symm)

/-- **To keep a part of a reply is to end it.** In any reachable session whose reply grows the turn may be
  aborted, or its link may deliver the end of the reply, whatever else it has to deliver. If there is text, the
  same message joins the history, all that shows and every signal are the same, and so is all that is done
  later; only the notice differs. Without text the end keeps an empty message with the tools of the turn, and
  an aborted turn keeps neither. -/
theorem kept_as_ended_course (matching : Matching) (transport : Transport) (mint : Mint)
    (ops : List (Int × Operation)) (link : Link) (draft : Message)
    (streaming : ((create matching transport mint).course ops).phase = .streaming link draft) :
    let s := (create matching transport mint).course ops
    let m := draft.finish s.tools.runs
    let ended := s.apply (.event .stop)
    let aborted := s.stop
    (m.id = draft.id ∧ m.role = .assistant ∧ m.content = s.snapshot.buffer ∧
      m.toolList = s.snapshot.tools ∧ m.growing = false) ∧
    (∀ feed, s.switch.hasFired link.signal = false → feed.fetch.1 = .delivery (.event .stop) →
      (s.refed feed).step = (.applied, ended)) ∧
    (∀ feed, feed.fetch.1 = .delivery (.closed .aborted) →
      (s.refed feed).step = (.applied, aborted)) ∧
    ended.snapshot = .resting s.conversation (s.history ++ [m]) none ∧
    ended.journal.notices = s.journal.notices ++ [.turnFinalized m] ∧
    ended.switch = (s.switch.fire link.signal).rest ∧
    (s.snapshot.buffer ≠ "" → OffRecord ended aborted ∧
      aborted.view = { ended.view with
        notices := s.journal.notices ++ [.turnCancelled (some m)] } ∧
      ∀ later, List.Forall₂ (fun a b => b.1 = a.1 ∧ View.Parallel ended.view aborted.view a.2 b.2)
        (ended.transcript later) (aborted.transcript later)) ∧
    (s.snapshot.buffer = "" →
      aborted = { ended with history := s.history, journal := aborted.journal } ∧
      aborted.view = { ended.view with
        snapshot := .resting s.conversation s.history none
        notices := s.journal.notices ++ [.turnCancelled none]
        published := s.journal.published ++ [.resting s.conversation s.history none] }) := by
  intro s m ended aborted
  have owned := owned_of_course matching transport mint ops
  have coherent : s.Coherent := invariant_coherent.course ops (coherent_create matching transport mint)
  have hl : s.phase.link? = some link := by
    rw [streaming]
    rfl
  have hb : s.snapshot.buffer = draft.content := congrArg Phase.buffer streaming
  have ended_eq : ended = (s.complete draft).publish := apply_stop streaming
  have aborted_eq : aborted = s.abort.publish := stop_eq (Phase.ne_idle_of_link? hl)
  have switch : s.leave.switch = s.switch.fire link.signal := by simp [leave, hl]
  have ended_shown : ended.snapshot = .resting s.conversation (s.history ++ [m]) none := by
    rw [ended_eq, ← coherent.mishap_eq_none streaming]
    rfl
  refine ⟨⟨rfl, (coherent.drafted link draft streaming).1, hb.symm, draft.toolList_finish _, rfl⟩,
    fun feed hf hx => step_of_stop streaming hf hx, ?_, ended_shown, ?_, ?_, ?_, ?_⟩
  · intro feed hx
    rw [aborted_eq]
    exact step_of_aborted hl hx
  · rw [ended_eq]
    rfl
  · rw [ended_eq]
    exact congrArg Switch.rest switch
  · intro text
    have hk : s.kept = some m :=
      (kept_of_streaming streaming).trans (if_neg (by simpa [hb] using text))
    rw [abort_eq (Phase.ne_idle_of_link? hl), hk] at aborted_eq
    have same : OffRecord ended aborted := by
      rw [ended_eq, aborted_eq]
      rfl
    refine ⟨same, ?_, same.transcript (ended_eq ▸ owned.numbered.complete draft)⟩
    rw [ended_eq, aborted_eq]
    rfl
  · intro empty
    have hk : s.kept = none := s.kept_eq_none_iff.mpr empty
    rw [abort_eq (Phase.ne_idle_of_link? hl), hk, Option.toList_none, List.append_nil] at aborted_eq
    refine ⟨?_, ?_⟩
    · rw [ended_eq, aborted_eq]
      rfl
    · rw [ended_eq, aborted_eq, ← coherent.mishap_eq_none streaming]
      rfl

/-- A reply with text, a tool that is done and a tool that still runs. -/
theorem kept_as_ended_course_of_tools :
    let feed := Feed.ofDeliveries
      [.event (.start "c1"), .event (.delta "Hel"), .event (.toolStart "search" []),
        .event (.toolEnd "search" true none), .event (.toolStart "read" []), .event .stop] false
    let s := (create .oldest ⟨[.accepted feed], .refused "no route"⟩
      ⟨fun n => ["u1", "r1", "t1", "t2"][n]?.getD "", 0, 0⟩).course
        [(1700, .send "Hi"), (1700, .step 5)]
    let m : Message := ⟨"r1", .assistant, "Hel", 1700, false,
      some [⟨"t1", "search", [], .success, none⟩, ⟨"t2", "read", [], .running, none⟩]⟩
    s.phase.stage = .streaming ∧ s.step = (.applied, s.apply (.event .stop)) ∧
    s.stop.view = { (s.apply (.event .stop)).view with
      notices := s.journal.notices ++ [.turnCancelled (some m)] } ∧
    (s.apply (.event .stop)).history = [.user "u1" 1700 "Hi", m] := by
  intro feed s m
  let link : Link := ⟨1, .ofDeliveries [.event .stop] false⟩
  have streaming : s.phase = .streaming link ⟨"r1", .assistant, "Hel", 1700, true, none⟩ := by decide
  obtain ⟨-, ends, -, -, -, -, text, -⟩ := kept_as_ended_course _ _ _ _ _ _ streaming
  have hl : s.phase.link? = some link := by
    rw [streaming]
    rfl
  have step : (s.refed link.feed).step = (.applied, s.apply (.event .stop)) :=
    ends link.feed (by decide) rfl
  rw [refed_self hl] at step
  exact ⟨congrArg Phase.stage streaming, step, (text (by decide)).2.1, by decide⟩

end Converse.Session
