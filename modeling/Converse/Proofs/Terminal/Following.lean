import Converse.Proofs.Talk.Intake
import Converse.Proofs.Talk.Transcript
import Converse.Terminal.Console
import Mathlib.Data.List.Induction

/-
  A console that follows a turn.

  Unless a key is awaited, following a turn is running it (`session_follow`), with a look at the session after
  every step. A step tells at most one thing, so nothing is lost from one look to the next, and what is shown is
  all that was told, in order: `Behind` counts what is still to be shown, and `current_follow` is the result.
-/

namespace Converse

/-! ## Turns that end -/

theorem Feed.fetchItems_ne_nothing (items : List Feed.Item) :
    (Feed.fetchItems false items).1 ≠ .nothing := by
  induction items with
  | nil => simp [Feed.fetchItems]
  | cons item items ih =>
    cases item with
    | deliver d => simp [Feed.fetchItems]
    | fire => exact ih

namespace Session

/-- What every step keeps, a run keeps. -/
theorem runFor_of_step {P : Session → Prop} (step : ∀ s : Session, P s → P s.step.2) (fuel : Nat)
    {s : Session} (h : P s) : P (runFor fuel s).2 := by
  induction fuel generalizing s with
  | zero => exact h
  | succ fuel ih =>
    by_cases ha : s.step.1 = .applied
    · rw [(runFor_applied ha).1]
      exact ih (step s h)
    · rw [(runFor_of_not_applied ha).1]
      exact step s h

/-- The link of the turn under way, if there is one, does not hang. -/
def Draining (s : Session) : Prop := ∀ link, s.phase.link? = some link → link.feed.hangs = false

theorem Draining.step {s : Session} (h : s.Draining) : s.step.2.Draining := by
  intro l' hl'
  obtain ⟨l, hl, -, rfl⟩ := link?_step hl'
  exact h l hl

theorem Draining.step_ne_waiting {s : Session} (h : s.Draining) : s.step.1 ≠ .waiting := by
  have hs := stepped s
  generalize s.step = r at hs
  cases hs with
  | waits link hl hf hx hi =>
    have hn : (Feed.fetchItems link.feed.hangs link.feed.items).1 = .nothing := hx
    rw [h link hl] at hn
    exact absurd hn (Feed.fetchItems_ne_nothing _)
  | _ => simp

/-- **A turn whose link does not hang is run to its end.** -/
theorem Draining.phase_run {s : Session} (h : s.Draining) : s.run.2.phase = .idle := by
  have hd : s.run.2.Draining := runFor_of_step (fun _ h => h.step) s.stepBound h
  have ha := step_run s
  have hw := hd.step_ne_waiting
  have hs := stepped s.run.2
  generalize s.run.2.step = r at hs ha hw
  cases hs with
  | idle hp => exact hp
  | waits _ _ _ _ _ => exact absurd rfl hw
  | _ => exact absurd rfl ha

/-- A message that is sent over a link which does not hang, or is refused. -/
theorem draining_send {s : Session}
    (ends : ∀ feed, s.transport.next.1 = .accepted feed → feed.hangs = false) (text : String) :
    (s.send text).Draining := by
  intro link hl
  rw [(supply_send s text).2.2] at hl
  cases hx : s.transport.next.1 with
  | accepted feed =>
    rw [hx] at hl
    cases hl
    exact ends feed hx
  | refused reason =>
    rw [hx] at hl
    cases hl

end Session

/-! ## What is shown of notices -/

namespace Terminal

theorem Lines.append_eq (a b : Lines) : a ++ b = ⟨a.output ++ b.output, a.errors ++ b.errors⟩ := rfl

/-- Notices in order are shown one after another. -/
theorem renderAll_eq (interactive : Bool) (ns : List Notice) :
    renderAll interactive ns =
      ⟨String.join (ns.map fun n => (render interactive n).output),
        String.join (ns.map fun n => (render interactive n).errors)⟩ := by
  induction ns using List.reverseRecOn with
  | nil => rfl
  | append_singleton ns n ih =>
    have hs : renderAll interactive (ns ++ [n]) =
        renderAll interactive ns ++ render interactive n := by
      simp [renderAll]
    rw [hs, ih, Lines.append_eq]
    simp [String.join_cons]

theorem renderAll_append (interactive : Bool) (ns ns' : List Notice) :
    renderAll interactive (ns ++ ns') = renderAll interactive ns ++ renderAll interactive ns' := by
  simp only [renderAll_eq, Lines.append_eq, List.map_append, String.join_append]

end Terminal

namespace Console

/-! ## Following is running -/

/-- The console after one step of the turn, with a look at what came of it. -/
def advance (c : Console) : Console := { c with session := c.session.step.2 }.refresh

theorem followFor_of_applied {c : Console} (h : c.session.step.1 = .applied) (fuel : Nat) :
    followFor (fuel + 1) c = followFor fuel c.advance := by
  have hs : c.session.step = (.applied, c.session.step.2) := Prod.ext h rfl
  rw [followFor, hs]
  rfl

theorem followFor_of_nothing {c : Console} (h : c.session.step.1 = .nothing) (fuel : Nat) :
    followFor (fuel + 1) c = c.advance := by
  have hs : c.session.step = (.nothing, c.session.step.2) := Prod.ext h rfl
  rw [followFor, hs]
  rfl

theorem followFor_of_waiting {c : Console} (hk : c.interruptAt = none)
    (h : c.session.step.1 = .waiting) (fuel : Nat) : followFor (fuel + 1) c = c := by
  have hs : c.session.step = (.waiting, c.session.step.2) := Prod.ext h rfl
  have hi : c.isInterrupted = false := by simp [isInterrupted, hk]
  rw [followFor, hs]
  simp [hi]

theorem session_followFor (fuel : Nat) {c : Console} (hk : c.interruptAt = none) :
    (followFor fuel c).session = (Session.runFor fuel c.session).2 := by
  induction fuel generalizing c with
  | zero => rfl
  | succ fuel ih =>
    cases hp : c.session.step.1 with
    | applied =>
      rw [followFor_of_applied hp, (Session.runFor_applied hp).1]
      exact ih (c := c.advance) hk
    | nothing =>
      rw [followFor_of_nothing hp, (Session.runFor_of_not_applied (by simp [hp])).1]
      rfl
    | waiting =>
      rw [followFor_of_waiting hk hp, (Session.runFor_of_not_applied (by simp [hp])).1]
      exact (Session.step_of_not_applied (by simp [hp])).symm

/-- **Following a turn is running it**, where no key is awaited. -/
theorem session_follow {c : Console} (hk : c.interruptAt = none) :
    c.follow.session = c.session.run.2 := by
  unfold follow
  rw [session_followFor _ hk, Session.run, Session.runFor_congr (by omega) (Nat.le_refl _)]

/-- What every step at the console keeps, following a turn keeps. -/
theorem followFor_of_advance {P : Console → Prop} (advance : ∀ c : Console, P c → P c.advance)
    (fuel : Nat) {c : Console} (hk : c.interruptAt = none) (h : P c) : P (followFor fuel c) := by
  induction fuel generalizing c with
  | zero => exact h
  | succ fuel ih =>
    cases hp : c.session.step.1 with
    | applied =>
      rw [followFor_of_applied hp]
      exact ih (c := c.advance) hk (advance c h)
    | nothing =>
      rw [followFor_of_nothing hp]
      exact advance c h
    | waiting =>
      rw [followFor_of_waiting hk hp]
      exact h

/-- Following a turn leaves alone what the console was set up with. -/
theorem setup_followFor (fuel : Nat) {c : Console} (hk : c.interruptAt = none) :
    (followFor fuel c).interruptAt = none ∧ (followFor fuel c).interactive = c.interactive :=
  followFor_of_advance (P := fun d => d.interruptAt = none ∧ d.interactive = c.interactive)
    (fun _ h => h) fuel hk ⟨hk, rfl⟩

/-! ## Nothing is lost -/

/-- All that was told is shown, in order, but for the last things, which are at most so many. -/
structure Behind (k : Nat) (c : Console) : Prop where
  looked : c.looked ≤ c.session.journal.notices.length
  near : c.session.journal.notices.length ≤ c.looked + k
  lossless : c.lost = 0
  shown : c.shown = Terminal.renderAll c.interactive (c.session.journal.notices.take c.looked)

theorem behind_create (session : Session) (interactive : Bool) (interruptAt : Option String)
    (h : session.journal.notices = []) : Behind 0 (create session interactive interruptAt) where
  looked := Nat.zero_le _
  near := by simp [create, h]
  lossless := rfl
  shown := by
    rw [create, h]
    rfl

/-- What the session tells is still to be shown. -/
theorem Behind.tells {k l : Nat} {c : Console} {s : Session} (h : Behind k c)
    (ht : Session.TellsAtMost l c.session s) : Behind (k + l) { c with session := s } := by
  obtain ⟨ns, hns, hlen⟩ := ht
  have near := h.near
  refine ⟨?_, ?_, h.lossless, ?_⟩
  · rw [hns, List.length_append]
    exact Nat.le_add_right_of_le h.looked
  · rw [hns, List.length_append]
    change _ ≤ c.looked + (k + l)
    omega
  · rw [hns, List.take_append_of_le_length h.looked]
    exact h.shown

theorem room_capacity : Backlog.room capacity = 256 := by decide

/-- A look at what is not more than is kept for it shows all of that. -/
theorem refresh_eq {c : Console} (h : c.session.journal.notices.length ≤ c.looked + 256) :
    c.refresh =
      { c with
        looked := c.session.journal.notices.length
        shown := c.shown ++
          Terminal.renderAll c.interactive (c.session.journal.notices.drop c.looked) } := by
  have kept : Backlog.look capacity (c.session.journal.notices.drop c.looked) =
      (0, c.session.journal.notices.drop c.looked) := by
    have hl : (c.session.journal.notices.drop c.looked).length - Backlog.room capacity = 0 := by
      rw [room_capacity, List.length_drop]
      omega
    unfold Backlog.look
    rw [hl]
    rfl
  unfold refresh
  dsimp only
  rw [kept]
  rfl

theorem Behind.refresh {k : Nat} {c : Console} (h : Behind k c) (hk : k ≤ 256) :
    Behind 0 c.refresh := by
  rw [refresh_eq (Nat.le_trans h.near (Nat.add_le_add_left hk _))]
  refine ⟨Nat.le_refl _, Nat.le_refl _, h.lossless, ?_⟩
  change c.shown ++ _ = Terminal.renderAll c.interactive
    (c.session.journal.notices.take c.session.journal.notices.length)
  rw [h.shown, ← Terminal.renderAll_append, List.take_append_drop, List.take_length]

theorem Behind.advance {k : Nat} {c : Console} (h : Behind k c) (hk : k < 256) :
    Behind 0 c.advance :=
  (h.tells (Session.tellsAtMost_step c.session)).refresh hk

theorem Behind.followFor (fuel : Nat) {c : Console} (hk : c.interruptAt = none)
    (h : Behind 0 c) : Behind 0 (followFor fuel c) :=
  followFor_of_advance (fun _ h => h.advance (by omega)) fuel hk h

/-- **Following a turn loses nothing and leaves nothing to be shown**, if little was told before it. -/
theorem current_follow {k : Nat} {c : Console} (hk : c.interruptAt = none) (h : Behind k c)
    (hb : k < 256) (hw : c.session.step.1 ≠ .waiting) : Behind 0 c.follow := by
  unfold follow
  cases hp : c.session.step.1 with
  | applied =>
    rw [followFor_of_applied hp]
    exact (h.advance hb).followFor _ hk
  | nothing =>
    rw [followFor_of_nothing hp]
    exact h.advance hb
  | waiting => exact absurd hp hw

end Console

end Converse
