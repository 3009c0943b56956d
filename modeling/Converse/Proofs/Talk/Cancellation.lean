import Converse.Proofs.Talk.Ownership

/-
  The ways in which a turn is cancelled.

  The session stops the turn itself, or it steps after the switch was used from outside, or it steps and its
  link says that it was aborted. `cancelled_course` is the result: all of them lead to one and the same
  session, whatever the link still had to deliver, and `Cancels` says what that session is.
-/

namespace Converse

theorem Message.toolList_finish (m : Message) (tools : List ToolRun) :
    (m.finish tools).toolList = tools := by
  cases tools <;> rfl

theorem Switch.fire_fire (s : Switch) (i : Nat) : (s.fire i).fire i = s.fire i := by
  simp [fire, List.set_set]

/-- It makes no difference whether a signal has fired before. -/
theorem Switch.fire_fired (s : Switch) (i : Nat) (before : Bool) :
    (if before then s.fire i else s).fire i = s.fire i := by
  cases before with
  | true => exact s.fire_fire i
  | false => rfl

namespace Session

theorem Phase.withLink_withLink (p : Phase) (link link' : Link) :
    (p.withLink link).withLink link' = p.withLink link' := by
  cases p <;> rfl

/-- The turn under way with something else to come over its link. -/
def refed (s : Session) (feed : Feed) : Session :=
  match s.phase.link? with
  | some link => { s with phase := s.phase.withLink { link with feed := feed } }
  | none => s

/-! ## One session at the end -/

/-- What was still to come over the link does not matter to a turn that is aborted, nor whether its signal has
  fired already. -/
theorem abort_congr {s : Session} {link : Link} (hl : s.phase.link? = some link) (feed : Feed)
    {switch : Switch} (hs : switch.fire link.signal = s.switch.fire link.signal) :
    ({ s with phase := s.phase.withLink { link with feed := feed }, switch := switch } : Session).abort
      = s.abort := by
  cases hp : s.phase with
  | idle => simp [hp, Phase.link?] at hl
  | awaiting l =>
    cases (hp ▸ hl : (Phase.awaiting l).link? = some link)
    simp [abort, leave, hp, Phase.withLink, Phase.link?, hs]
  | streaming l draft =>
    cases (hp ▸ hl : (Phase.streaming l draft).link? = some link)
    simp [abort, leave, hp, Phase.withLink, Phase.link?, hs, keep]

theorem stop_eq {s : Session} (hp : s.phase ≠ .idle) : s.stop = s.abort.publish :=
  if_neg (mt Phase.isIdle_iff.mp hp)

theorem refed_eq {s : Session} {link : Link} (hl : s.phase.link? = some link) (feed : Feed) :
    s.refed feed = { s with phase := s.phase.withLink { link with feed := feed } } := by
  unfold refed
  rw [hl]

theorem refed_self {s : Session} {link : Link} (hl : s.phase.link? = some link) :
    s.refed link.feed = s := by
  have hw : s.phase.withLink { link with feed := link.feed } = s.phase := by
    cases hp : s.phase with
    | idle => rfl
    | awaiting l => cases (hp ▸ hl : (Phase.awaiting l).link? = some link); rfl
    | streaming l draft => cases (hp ▸ hl : (Phase.streaming l draft).link? = some link); rfl
  rw [refed_eq hl, hw]

theorem link?_refed {s : Session} {link : Link} (hl : s.phase.link? = some link) (feed : Feed) :
    (s.refed feed).phase.link? = some { link with feed := feed } := by
  rw [refed_eq hl]
  exact Phase.link?_withLink (Phase.ne_idle_of_link? hl) _

theorem switch_refed (s : Session) (feed : Feed) : (s.refed feed).switch = s.switch := by
  unfold refed
  split <;> rfl

/-- A step after the switch was used from outside takes in nothing from the link. -/
theorem step_signalStop {s : Session} {link : Link} (hl : s.phase.link? = some link)
    (hi : link.signal = s.switch.installed) (hlt : link.signal < s.switch.fired.length)
    (feed : Feed) : (s.refed feed).signalStop.step = (.applied, s.abort.publish) := by
  have hp := Phase.ne_idle_of_link? hl
  have hr : (s.refed feed).signalStop =
      { s with
        phase := s.phase.withLink { link with feed := feed }
        switch := s.switch.fire link.signal } := by
    rw [refed_eq hl, hi]
    rfl
  rw [hr, step_of_fired (Phase.link?_withLink hp _) ((Switch.hasFired_fire hlt _).mpr (.inl rfl)),
    apply_closed, close, abort_congr hl feed (s.switch.fire_fire link.signal)]

/-- A step of the turn that takes in a delivery of its link. -/
theorem step_refed {s : Session} {link : Link} (hl : s.phase.link? = some link)
    (hf : s.switch.hasFired link.signal = false) {feed : Feed} {d : Delivery}
    (hx : feed.fetch.1 = .delivery d) :
    (s.refed feed).step =
      (.applied,
        ({ s with
          phase := s.phase.withLink { link with feed := feed.fetch.2.1 }
          switch := if feed.fetch.2.2 then s.switch.fire link.signal else s.switch } : Session).apply d)
      := by
  rw [← switch_refed s feed] at hf
  rw [step_of_unfired (link?_refed hl feed) hf, hx, refed_eq hl]
  unfold fetched
  rw [Phase.withLink_withLink]

/-- A link that says it was aborted ends the turn, even if the signal of the turn fires while it is asked or
  has fired before. -/
theorem step_of_aborted {s : Session} {link : Link} (hl : s.phase.link? = some link) {feed : Feed}
    (hx : feed.fetch.1 = .delivery (.closed .aborted)) :
    (s.refed feed).step = (.applied, s.abort.publish) := by
  cases hf : s.switch.hasFired link.signal with
  | true =>
    rw [← switch_refed s feed] at hf
    rw [step_of_fired (link?_refed hl feed) hf, apply_closed, close, refed_eq hl,
      abort_congr hl feed rfl]
  | false =>
    rw [step_refed hl hf hx, apply_closed, close, abort_congr hl]
    exact s.switch.fire_fired link.signal feed.fetch.2.2

/-! ## What it is -/

/-- The message that is kept of the reply if the turn is cancelled now. -/
def kept (s : Session) : Option Message :=
  match s.phase with
  | .streaming _ draft => if draft.content.isEmpty then none else some (draft.finish s.tools.runs)
  | _ => none

theorem abort_eq {s : Session} (hp : s.phase ≠ .idle) :
    s.abort =
      ({ s.leave.dropTools.rest with history := s.history ++ s.kept.toList }.remark
        .turnCancelled).announce (.turnCancelled s.kept) := by
  unfold abort kept
  cases h : s.phase with
  | idle => exact absurd h hp
  | awaiting link => simp [leave, h, dropTools, rest, remark, announce]
  | streaming link draft =>
    dsimp only
    split
    · simp [leave, h, dropTools, rest, remark, announce]
    · simp [leave, h, keep, dropTools, rest, remark, announce]

theorem kept_eq_none_iff (s : Session) : s.kept = none ↔ s.snapshot.buffer = "" := by
  unfold kept
  cases h : s.phase with
  | streaming link draft => simp [snapshot, h, Phase.buffer]
  | _ => simp [snapshot, h, Phase.buffer]

theorem kept_eq_some {s : Session} {m : Message} (h : s.kept = some m) :
    m.content = s.snapshot.buffer ∧ m.toolList = s.snapshot.tools := by
  unfold kept at h
  split at h
  · next link draft hp =>
    split at h
    · simp at h
    · cases h
      exact ⟨by simp [snapshot, hp, Phase.buffer, Message.finish], draft.toolList_finish _⟩
  · simp at h

/-- From `s` to `t` the turn under way was cancelled, and the message was kept of its reply. -/
structure Cancels (s t : Session) (kept : Option Message) : Prop where
  notices : t.journal.notices = s.journal.notices ++ [.turnCancelled kept]
  history : t.history = s.history ++ kept.toList
  conversation : t.conversation = s.conversation
  mishap : t.mishap = s.mishap
  dropped : t.dropped = s.dropped
  questions : t.journal.questions = s.journal.questions
  phase : t.phase = .idle
  tools : t.tools.runs = []
  running : t.switch.running = false
  fired_iff : ∀ k, t.switch.hasFired k = true ↔
    k = s.switch.installed ∨ s.switch.hasFired k = true

theorem cancels_stop {s : Session} {link : Link} (hl : s.phase.link? = some link)
    (hi : link.signal = s.switch.installed) (hlt : link.signal < s.switch.fired.length) :
    Cancels s s.stop s.kept := by
  have hp := Phase.ne_idle_of_link? hl
  rw [stop_eq hp, abort_eq hp]
  constructor <;> try rfl
  intro k
  have hs : s.leave.switch = s.switch.fire link.signal := by simp [leave, hl]
  change s.leave.switch.hasFired k = true ↔ _
  rw [hs, Switch.hasFired_fire hlt, hi]

/-- **All ways to cancel a turn come to the same.** A turn under way in any reachable session may be stopped
  by the session, or by a step after the switch was used from outside, whatever its link would deliver, or by
  a step in which its link says that it was aborted. What comes of it is one session, in which the turn is
  cancelled and its reply kept exactly if it had text. -/
theorem cancelled_course (matching : Matching) (transport : Transport) (mint : Mint)
    (ops : List (Int × Operation))
    (busy : ((create matching transport mint).course ops).phase ≠ .idle) :
    let s := (create matching transport mint).course ops
    Cancels s s.stop s.kept ∧ (s.kept = none ↔ s.snapshot.buffer = "") ∧
    (∀ m, s.kept = some m → m.content = s.snapshot.buffer ∧ m.toolList = s.snapshot.tools) ∧
    s.signalStop.step = (.applied, s.stop) ∧
    (∀ feed, (s.refed feed).signalStop.step = (.applied, s.stop)) ∧
    ∀ feed, feed.fetch.1 = .delivery (.closed .aborted) →
      (s.refed feed).step = (.applied, s.stop) := by
  intro s
  have owned := owned_of_course matching transport mint ops
  obtain ⟨link, hl⟩ := Option.ne_none_iff_exists'.mp (mt Phase.link?_eq_none.mp busy)
  have hi := owned.signal_eq hl
  have hlt := owned.signal_lt hl
  rw [stop_eq busy]
  refine ⟨stop_eq busy ▸ cancels_stop hl hi hlt, s.kept_eq_none_iff, fun _ => kept_eq_some, ?_,
    step_signalStop hl hi hlt, fun _ => step_of_aborted hl⟩
  have h := step_signalStop hl hi hlt link.feed
  rw [refed_self hl] at h
  exact h

/-- A reply with a tool that still runs, cancelled while more of it is ready. -/
theorem cancelled_course_of_tool :
    let feed := Feed.ofDeliveries
      [.event (.start "c1"), .event (.delta "Hel"), .event (.toolStart "search" []),
        .event (.delta "lo"), .event .stop] true
    let s := (create .oldest ⟨[.accepted feed], .refused "no route"⟩
      ⟨fun n => ["u1", "r1", "t1"][n]?.getD "", 0, 0⟩).course [(1700, .send "Hi"), (1700, .step 3)]
    s.phase ≠ .idle ∧ s.signalStop.step = (.applied, s.stop) ∧
      s.kept = some ⟨"r1", .assistant, "Hel", 1700, false,
        some [⟨"t1", "search", [], .running, none⟩]⟩ := by
  intro feed s
  have busy : s.phase ≠ .idle := by decide
  exact ⟨busy, (cancelled_course _ _ _ _ busy).2.2.2.1, by decide⟩

end Session

end Converse
