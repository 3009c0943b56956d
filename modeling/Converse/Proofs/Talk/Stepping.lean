import Converse.Proofs.Talk.Intake
import Converse.Proofs.Talk.Keeping

/-
  A step, and what becomes of one that has to wait.

  `due` says what a step takes in, by what its link has left, and `poised` is the session at that moment:
  `step_eq` says that a step takes in just that. A link may also be silent for a while. `Moment` lists what can
  go on meanwhile, and `passAll_eq` says that calls which had to wait leave no trace: all comes to what it would
  have come to if everything had been there at the start and no call had waited. `atomic_course` is the result.
-/

namespace Converse

namespace Feed

def Item.delivery? : Item → Option Delivery
  | .deliver d => some d
  | .fire => none

/-- The deliveries that are still to come. -/
def undelivered (f : Feed) : List Delivery := f.items.filterMap Item.delivery?

/-- Whether the stop signal fires before the next of them comes. -/
def firesFirst (f : Feed) : Bool := f.items.head? == some .fire

/-- More may come over the link, and the stop signal does not fire while nothing comes. -/
structure Unfinished (f : Feed) : Prop where
  hangs : f.hangs = true
  last : f.items.getLast? ≠ some .fire

/-- The feed with more to come at its end. -/
def extend (f : Feed) (items : List Item) : Feed := { f with items := f.items ++ items }

/-! ## One fetch -/

theorem fetch_fst (f : Feed) :
    f.fetch.1 = match f.undelivered with
      | d :: _ => .delivery d
      | [] => if f.hangs then .nothing else .ended := by
  obtain ⟨items, hangs⟩ := f
  unfold fetch undelivered
  induction items with
  | nil => rfl
  | cons item items ih =>
    cases item with
    | deliver d => rfl
    | fire => exact ih

theorem undelivered_fetch (f : Feed) : f.fetch.2.1.undelivered = f.undelivered.tail := by
  obtain ⟨items, hangs⟩ := f
  unfold fetch undelivered
  induction items with
  | nil => rfl
  | cons item items ih =>
    cases item with
    | deliver d => rfl
    | fire => exact ih

theorem fetch_fires (f : Feed) : f.fetch.2.2 = f.firesFirst := by
  obtain ⟨items, hangs⟩ := f
  cases items with
  | nil => rfl
  | cons item items => cases item <;> rfl

/-- What comes later makes no difference to a fetch that gets a delivery. -/
theorem fetch_extend {f : Feed} {d : Delivery} (h : f.fetch.1 = .delivery d) (more : List Item) :
    (f.extend more).fetch = (.delivery d, f.fetch.2.1.extend more, f.fetch.2.2) := by
  obtain ⟨items, hangs⟩ := f
  unfold fetch extend at *
  dsimp only at *
  have hi : fetchItems hangs (items ++ more) =
      (.delivery d, (fetchItems hangs items).2.1 ++ more, (fetchItems hangs items).2.2) := by
    induction items with
    | nil => cases hangs <;> simp [fetchItems] at h
    | cons item items ih =>
      cases item with
      | deliver e => rw [List.cons_append, fetchItems, fetchItems, ← h]; rfl
      | fire => rw [List.cons_append, fetchItems, fetchItems, ih h]
  rw [hi]

theorem extend_nil (f : Feed) : f.extend [] = f := by
  unfold extend
  rw [List.append_nil]

theorem extend_extend (f : Feed) (items more : List Item) :
    (f.extend items).extend more = f.extend (items ++ more) := by
  unfold extend
  rw [List.append_assoc]

theorem undelivered_extend (f : Feed) (items : List Item) :
    (f.extend items).undelivered = f.undelivered ++ items.filterMap Item.delivery? :=
  List.filterMap_append

theorem Unfinished.extend {f : Feed} (h : f.Unfinished) {items : List Item}
    (hi : items.getLast? ≠ some .fire) : (f.extend items).Unfinished where
  hangs := h.hangs
  last := by
    change (f.items ++ items).getLast? ≠ some .fire
    rw [List.getLast?_append]
    cases hl : items.getLast? with
    | none => exact h.last
    | some item => rwa [hl] at hi

/-- A link that may go on either has a delivery ready or has nothing at all. -/
theorem Unfinished.fetch {f : Feed} (h : f.Unfinished) :
    (∃ d, f.fetch.1 = .delivery d) ∨ (f.fetch.1 = .nothing ∧ f.fetch.2.2 = false) := by
  obtain ⟨items, hangs⟩ := f
  obtain ⟨hh, hl⟩ := h
  cases (show hangs = true from hh)
  unfold Feed.fetch
  dsimp only at *
  induction items with
  | nil => exact .inr ⟨rfl, rfl⟩
  | cons item items ih =>
    cases item with
    | deliver d => exact .inl ⟨d, rfl⟩
    | fire =>
      cases items with
      | nil => exact absurd rfl hl
      | cons item items =>
        rw [List.getLast?_cons_cons] at hl
        rcases ih hl with hd | ⟨-, hf⟩
        · exact .inl hd
        · cases item with
          | deliver d => exact .inl ⟨d, rfl⟩
          | fire => cases hf

theorem Unfinished.rest {f : Feed} (h : f.Unfinished) : f.fetch.2.1.Unfinished := by
  obtain ⟨items, hangs⟩ := f
  refine ⟨h.hangs, ?_⟩
  have hl := h.last
  unfold Feed.fetch
  dsimp only at *
  induction items with
  | nil => exact hl
  | cons item items ih =>
    have ht : items.getLast? ≠ some .fire := by
      cases items with
      | nil => simp
      | cons next items => rwa [List.getLast?_cons_cons] at hl
    cases item with
    | deliver d => exact ht
    | fire => exact ih ⟨h.hangs, ht⟩ ht

end Feed

namespace Session

/-! ## Another feed makes no difference to what is taken in -/

theorem refed_of_idle {s : Session} (hp : s.phase = .idle) (feed : Feed) : s.refed feed = s := by
  unfold refed
  rw [hp]
  rfl

theorem refed_refed (s : Session) (feed feed' : Feed) : (s.refed feed).refed feed' = s.refed feed' := by
  cases hl : s.phase.link? with
  | none =>
    have hp := Phase.link?_eq_none.mp hl
    rw [refed_of_idle hp]
  | some link =>
    rw [refed_eq hl, refed_eq (Phase.link?_withLink (Phase.ne_idle_of_link? hl) _),
      refed_eq hl, Phase.withLink_withLink]

/-- A change that leaves the phase alone and does not look at it. -/
theorem map_refed (g : Session → Session) {s : Session} (hp : (g s).phase = s.phase)
    (hg : ∀ p, g { s with phase := p } = { g s with phase := p }) (feed : Feed) :
    g (s.refed feed) = (g s).refed feed := by
  cases hl : s.phase.link? with
  | none =>
    have hi := Phase.link?_eq_none.mp hl
    rw [refed_of_idle hi, refed_of_idle (hp.trans hi)]
  | some link =>
    rw [refed_eq hl, refed_eq (hp.symm ▸ hl), hg, hp]

theorem leave_refed (s : Session) (feed : Feed) : (s.refed feed).leave = s.leave := by
  cases hl : s.phase.link? with
  | none => rw [refed_of_idle (Phase.link?_eq_none.mp hl)]
  | some link =>
    rw [refed_eq hl]
    exact leave_congr hl feed rfl

theorem fail_refed (s : Session) (feed : Feed) (m : Mishap) :
    (s.refed feed).fail m = (s.fail m).refed feed := by
  rw [refed_of_idle (s := s.fail m) rfl]
  unfold fail
  rw [leave_refed]

theorem abort_refed (s : Session) (feed : Feed) : (s.refed feed).abort = s.abort.refed feed := by
  rw [refed_of_idle (abort_phase s)]
  cases hl : s.phase.link? with
  | none => rw [refed_of_idle (Phase.link?_eq_none.mp hl)]
  | some link =>
    rw [refed_eq hl]
    exact abort_congr hl feed rfl

theorem tools_refed (s : Session) (feed : Feed) : (s.refed feed).tools = s.tools := by
  unfold refed
  split <;> rfl

theorem complete_refed (s : Session) (feed : Feed) (draft : Message) :
    (s.refed feed).complete draft = (s.complete draft).refed feed := by
  rw [refed_of_idle (s := s.complete draft) rfl]
  unfold complete
  rw [leave_refed, tools_refed]

theorem finishTool_refed (s : Session) (feed : Feed) (tool : String) (success : Bool)
    (summary : Option String) :
    (s.refed feed).finishTool tool success summary =
      (s.finishTool tool success summary).refed feed := by
  unfold finishTool
  rw [tools_refed]
  cases s.tools.finish tool success summary with
  | none =>
    dsimp only
    split
    · exact map_refed (fun s => (s.remark .toolAmbiguous).remark .toolUnmatched) rfl (fun _ => rfl) feed
    · exact map_refed (·.remark .toolUnmatched) rfl (fun _ => rfl) feed
  | some r =>
    exact map_refed
      (fun s => ({ s with tools := r.2 }.remark .toolFinished).announce (.toolFinished r.1))
      rfl (fun _ => rfl) feed

theorem receive_refed (s : Session) (feed : Feed) (e : Reply.Event) :
    (s.refed feed).receive e = (s.receive e).refed feed := by
  cases hp : s.phase with
  | idle =>
    have hr : (s.receive e).phase = .idle := by
      simp only [receive, hp]
      exact hp
    rw [refed_of_idle hp, refed_of_idle hr]
  | awaiting link =>
    have hl : s.phase.link? = some link := by rw [hp]; rfl
    have hp' : (s.refed feed).phase = .awaiting { link with feed := feed } := by
      rw [refed_eq hl, hp]
      rfl
    cases e with
    | start conversation =>
      simp only [receive, hp, hp']
      rw [refed_eq hl]
      rfl
    | _ =>
      simp only [receive, hp, hp']
      exact fail_refed s feed _
  | streaming link draft =>
    have hl : s.phase.link? = some link := by rw [hp]; rfl
    have hp' : (s.refed feed).phase = .streaming { link with feed := feed } draft := by
      rw [refed_eq hl, hp]
      rfl
    cases e with
    | delta content =>
      simp only [receive, hp, hp']
      rw [refed_eq hl]
      rfl
    | toolStart tool arguments =>
      simp only [receive, hp, hp']
      exact map_refed (·.startTool tool arguments) rfl (fun _ => rfl) feed
    | toolEnd tool success summary =>
      simp only [receive, hp, hp']
      exact finishTool_refed s feed tool success summary
    | stop =>
      simp only [receive, hp, hp']
      exact complete_refed s feed draft
    | _ =>
      simp only [receive, hp, hp']
      exact fail_refed s feed _

theorem isIdle_refed (s : Session) (feed : Feed) : (s.refed feed).phase.isIdle = s.phase.isIdle := by
  cases hl : s.phase.link? with
  | none => rw [refed_of_idle (Phase.link?_eq_none.mp hl)]
  | some link =>
    rw [refed_eq hl]
    cases hp : s.phase <;> simp [Phase.withLink, Phase.isIdle]

theorem close_refed (s : Session) (feed : Feed) (ending : Ending) :
    (s.refed feed).close ending = (s.close ending).refed feed := by
  cases ending with
  | aborted => exact abort_refed s feed
  | normal =>
    simp only [close, isIdle_refed]
    split
    · rfl
    · exact fail_refed s feed _
  | failed failure =>
    simp only [close, isIdle_refed]
    split
    · rfl
    · rw [map_refed (·.remark .linkFailed) rfl (fun _ => rfl), fail_refed]

theorem snapshot_refed (s : Session) (feed : Feed) : (s.refed feed).snapshot = s.snapshot := by
  cases hl : s.phase.link? with
  | none => rw [refed_of_idle (Phase.link?_eq_none.mp hl)]
  | some link =>
    rw [refed_eq hl]
    cases hp : s.phase <;> simp [snapshot, hp, Phase.withLink, Phase.stage, Phase.buffer]

theorem publish_refed (s : Session) (feed : Feed) : (s.refed feed).publish = s.publish.refed feed := by
  have hs : (s.refed feed).publish =
      { s.refed feed with journal :=
        { (s.refed feed).journal with
          published := (s.refed feed).journal.published ++ [s.snapshot] } } := by
    unfold publish
    rw [snapshot_refed]
  rw [hs]
  exact map_refed
    (fun u => { u with journal :=
      { u.journal with published := u.journal.published ++ [s.snapshot] } })
    rfl (fun _ => rfl) feed

/-- What is taken in does not depend on what is still to come. -/
theorem apply_refed (s : Session) (feed : Feed) (d : Delivery) :
    (s.refed feed).apply d = (s.apply d).refed feed := by
  unfold apply
  rw [← publish_refed]
  refine congrArg publish ?_
  cases d with
  | opened => exact map_refed (·.remark .opened) rfl (fun _ => rfl) feed
  | dropped reason =>
    exact map_refed (fun s => { s with dropped := s.dropped + 1 }.remark .frameDropped)
      rfl (fun _ => rfl) feed
  | event e => exact receive_refed s feed e
  | closed ending => exact close_refed s feed ending

/-! ## What a step takes in -/

/-- What is still to come over the link of the turn under way. -/
def pending (s : Session) : List Delivery :=
  match s.phase.link? with
  | some link => link.feed.undelivered
  | none => []

/-- What a step takes in, unless it finds nothing to do or has to wait. The stop signal comes first; then what
  the link has ready; then its end, or the stop signal if it fires while nothing is ready. -/
def due (s : Session) : Option Delivery :=
  match s.phase.link? with
  | none => none
  | some link =>
    if s.switch.hasFired link.signal then some (.closed .aborted)
    else
      match link.feed.undelivered with
      | d :: _ => some d
      | [] =>
        if !link.feed.hangs then some (.closed .normal)
        else if link.feed.firesFirst then some (.closed .aborted)
        else none

/-- What a step takes from the link, at most one delivery. -/
def gain (s : Session) : List Delivery :=
  match s.phase.link? with
  | some link => if s.switch.hasFired link.signal then [] else link.feed.undelivered.take 1
  | none => []

/-- The session at the moment when a step takes something in: its link was asked, unless the signal had
  fired. -/
def poised (s : Session) : Session :=
  match s.phase.link? with
  | none => s
  | some link =>
    if s.switch.hasFired link.signal then s
    else
      match link.feed.fetch.1 with
      | .ended => (s.fetched link).remark .endedSilently
      | _ => s.fetched link

theorem due_of_idle {s : Session} (hp : s.phase = .idle) : s.due = none := by
  unfold due
  rw [hp]
  rfl

/-- **A step takes in one thing**, the one that is due, or it finds nothing to do, or it waits. -/
theorem step_eq (s : Session) :
    s.step = match s.due with
      | some d => (.applied, s.poised.apply d)
      | none => if s.phase.isIdle then (.nothing, s) else (.waiting, s) := by
  cases hl : s.phase.link? with
  | none =>
    have hp := Phase.link?_eq_none.mp hl
    rw [due_of_idle hp]
    simp [step, hp, Phase.link?, Phase.isIdle]
  | some link =>
    have hi : s.phase.isIdle = false :=
      Bool.eq_false_iff.mpr (mt Phase.isIdle_iff.mp (Phase.ne_idle_of_link? hl))
    cases hf : s.switch.hasFired link.signal with
    | true => simp [step_of_fired hl hf, due, poised, hl, hf]
    | false =>
      rw [step_of_unfired hl hf, link.feed.fetch_fires]
      have hx := link.feed.fetch_fst
      simp only [due, poised, hl, hf, Bool.false_eq_true, if_false, hi]
      cases hu : link.feed.undelivered with
      | cons d ds =>
        rw [hu] at hx
        rw [hx]
      | nil =>
        rw [hu] at hx
        rw [hx]
        cases link.feed.hangs <;> cases link.feed.firesFirst <;> rfl

theorem step_of_due {s : Session} {d : Delivery} (h : s.due = some d) :
    s.step = (.applied, s.poised.apply d) := by
  rw [step_eq, h]

theorem step_of_not_due {s : Session} (h : s.due = none) : s.step.2 = s := by
  rw [step_eq, h]
  dsimp only
  split <;> rfl

/-- From `s` to `u` the link was asked and nothing was taken in yet: only the link and the signal of its turn
  may differ, and the deliveries still to come are those before without the one that was gained. -/
structure Untouched (s u : Session) : Prop where
  snapshot : u.snapshot = s.snapshot
  notices : u.journal.notices = s.journal.notices
  published : u.journal.published = s.journal.published
  questions : u.journal.questions = s.journal.questions
  dropped : u.dropped = s.dropped
  pending : s.gain ++ u.pending = s.pending
  switch : u.switch = match s.phase.link? with
    | some link => if s.firesItself then s.switch.fire link.signal else s.switch
    | none => s.switch

theorem pending_eq {s : Session} {link : Link} (hl : s.phase.link? = some link) :
    s.pending = link.feed.undelivered := by
  unfold pending
  rw [hl]

theorem untouched_poised (s : Session) : Untouched s s.poised := by
  cases hl : s.phase.link? with
  | none =>
    have hs : s.poised = s := by
      unfold poised
      rw [hl]
    rw [hs]
    exact ⟨rfl, rfl, rfl, rfl, rfl, by simp [gain, pending, hl], by rw [hl]⟩
  | some link =>
    cases hf : s.switch.hasFired link.signal with
    | true =>
      have hs : s.poised = s := by simp [poised, hl, hf]
      rw [hs]
      exact ⟨rfl, rfl, rfl, rfl, rfl, by simp [gain, hl, hf], by simp [hl, firesItself, hf]⟩
    | false =>
      have hp : (s.fetched link).pending = link.feed.undelivered.tail := by
        rw [pending_eq (link?_fetched hl), Feed.undelivered_fetch]
      have asked : Untouched s (s.fetched link) :=
        { snapshot := snapshot_fetched s link
          notices := rfl
          published := rfl
          questions := rfl
          dropped := rfl
          pending := by
            rw [hp, pending_eq hl]
            cases hu : link.feed.undelivered <;> simp [gain, hl, hf, hu]
          switch := by simp [fetched, hl, firesItself, hf] }
      have hs : s.poised = s.fetched link ∨ s.poised = (s.fetched link).remark .endedSilently := by
        unfold poised
        rw [hl]
        dsimp only
        rw [hf]
        cases link.feed.fetch.1 with
        | ended => exact .inr rfl
        | _ => exact .inl rfl
      rcases hs with hs | hs
      · rw [hs]
        exact asked
      · rw [hs]
        exact { asked with }

theorem stage_poised (s : Session) : s.poised.phase.stage = s.phase.stage :=
  congrArg Snapshot.stage (untouched_poised s).snapshot

theorem phase_poised {s : Session} (busy : s.phase ≠ .idle) : s.poised.phase ≠ .idle := by
  intro hp
  have hs := stage_poised s
  rw [hp] at hs
  cases h : s.phase with
  | idle => exact busy h
  | _ =>
    rw [h] at hs
    cases hs

/-- A step that has to wait has changed nothing, nor has asking the link. -/
theorem poised_of_waiting {s : Session} (hd : s.due = none) : s.poised = s := by
  cases hl : s.phase.link? with
  | none =>
    unfold poised
    rw [hl]
  | some link =>
    unfold due at hd
    rw [hl] at hd
    dsimp only at hd
    split at hd
    · cases hd
    · next hf =>
      split at hd
      · cases hd
      · next hu =>
        have hx := link.feed.fetch_fst
        have hh : link.feed.hangs = true ∧ link.feed.firesFirst = false := by
          cases hh : link.feed.hangs <;> cases hr : link.feed.firesFirst <;> simp_all
        rw [hu, hh.1] at hx
        have hfeed := fetch_of_waiting hx (link.feed.fetch_fires.trans hh.2)
        have hs : s.fetched link = s.refed link.feed := by
          rw [refed_eq hl, fetched, link.feed.fetch_fires, hh.2, hfeed]
          rfl
        simp only [poised, hl, hf, hx]
        exact hs.trans (refed_self hl)

/-! ## A signal that fires while something is fetched -/

/-- A signal that has fired stays so as long as its turn goes on. -/
theorem kept_fired (i : Nat) :
    Kept fun s => s.phase = .idle ∨ (s.phase.signal? = some i ∧ s.switch.hasFired i = true) where
  remark _ _ h := h
  publish _ h := h
  countDropped _ h := h
  abort s _ := .inl (abort_phase s)
  fail _ _ _ _ := .inl rfl
  complete _ _ _ _ _ := .inl rfl
  startReply s link _ hp h := by
    refine .inr (h.resolve_left (by simp [hp]) |>.imp_left fun hs => ?_)
    rw [hp] at hs
    exact hs
  grow s link draft _ hp h := by
    refine .inr (h.resolve_left (by simp [hp]) |>.imp_left fun hs => ?_)
    rw [hp] at hs
    exact hs
  startTool _ _ _ _ _ _ h := h
  finishTool s _ _ tool success summary _ h := by
    rw [finishTool_eq]
    exact h

/-- After the delivery during which the signal fired, a turn that goes on is aborted. -/
theorem Owned.step_of_firesItself {script : Transport} {hits : List Nat} {s : Session}
    (owned : Owned script hits s) (hf : s.firesItself = true) (busy : s.step.2.phase ≠ .idle) :
    s.step.2.step = (.applied, s.step.2.stop) := by
  have fired : ∃ i, s.step.2.phase = .idle ∨
      (s.step.2.phase.signal? = some i ∧ s.step.2.switch.hasFired i = true) := by
    cases hl : s.phase.link? with
    | none => simp [firesItself, hl] at hf
    | some link =>
      refine ⟨link.signal, (kept_fired link.signal).step ?_ fun hn => by simp [hf] at hn⟩
      intro l hl' hu
      cases hl.symm.trans hl'
      have hx : link.feed.fetch.2.2 = true := by simpa [firesItself, hl, hu] using hf
      have hs : (s.fetched link).phase.signal? = some link.signal := by
        simp [Phase.signal?, link?_fetched hl]
      have hw : (s.fetched link).switch = s.switch.fire link.signal := by simp [Session.fetched, hx]
      exact .inr ⟨hs, hw ▸ (Switch.hasFired_fire (owned.signal_lt hl) _).mpr (.inl rfl)⟩
  obtain ⟨i, hi⟩ := fired
  obtain ⟨hs, hfired⟩ := hi.resolve_left busy
  obtain ⟨l, hl, rfl⟩ := Option.map_eq_some_iff.mp hs
  rw [step_of_fired hl hfired, stop_eq busy]
  rfl

/-! ## Calls that wait -/

/-- What can go on while a turn is under way: a call that steps and is dropped if it has to wait, more that
  comes over the link, and a stop from outside. -/
inductive Moment
  | call
  | arrival (items : List Feed.Item)
  | signalStop
deriving DecidableEq, Repr

/-- More has come over the link of the turn under way. -/
def arrive (s : Session) (items : List Feed.Item) : Session :=
  match s.phase.link? with
  | some link => s.refed (link.feed.extend items)
  | none => s

def pass (s : Session) : Moment → Session
  | .call => s.step.2
  | .arrival items => s.arrive items
  | .signalStop => s.signalStop

def passAll (s : Session) (ms : List Moment) : Session := ms.foldl pass s

/-- All that comes over the link. -/
def arrivals : List Moment → List Feed.Item
  | [] => []
  | .call :: ms => arrivals ms
  | .arrival items :: ms => items ++ arrivals ms
  | .signalStop :: ms => arrivals ms

/-- All that the calls take from the link. -/
def gains (s : Session) : List Moment → List Delivery
  | [] => []
  | .call :: ms => s.gain ++ s.step.2.gains ms
  | .arrival items :: ms => (s.arrive items).gains ms
  | .signalStop :: ms => s.signalStop.gains ms

/-- What is done, without the calls that have to wait. -/
def doings (s : Session) : List Moment → List Deed
  | [] => []
  | .call :: ms =>
    if s.step.1 = .waiting then s.step.2.doings ms else .step :: s.step.2.doings ms
  | .arrival items :: ms => (s.arrive items).doings ms
  | .signalStop :: ms => .signalStop :: s.signalStop.doings ms

theorem arrive_of_idle {s : Session} (hp : s.phase = .idle) (items : List Feed.Item) :
    s.arrive items = s := by
  unfold arrive
  rw [hp]
  rfl

theorem arrive_eq {s : Session} {link : Link} (hl : s.phase.link? = some link)
    (items : List Feed.Item) : s.arrive items = s.refed (link.feed.extend items) := by
  unfold arrive
  rw [hl]

theorem link?_arrive {s : Session} {link : Link} (hl : s.phase.link? = some link)
    (items : List Feed.Item) :
    (s.arrive items).phase.link? = some { link with feed := link.feed.extend items } := by
  rw [arrive_eq hl]
  exact link?_refed hl _

theorem arrive_nil (s : Session) : s.arrive [] = s := by
  cases hl : s.phase.link? with
  | none => exact arrive_of_idle (Phase.link?_eq_none.mp hl) []
  | some link => rw [arrive_eq hl, Feed.extend_nil, refed_self hl]

theorem arrive_arrive (s : Session) (items more : List Feed.Item) :
    (s.arrive items).arrive more = s.arrive (items ++ more) := by
  cases hl : s.phase.link? with
  | none =>
    have hp := Phase.link?_eq_none.mp hl
    rw [arrive_of_idle hp, arrive_of_idle hp, arrive_of_idle hp]
  | some link =>
    rw [arrive_eq (link?_arrive hl items), arrive_eq hl, arrive_eq hl, refed_refed,
      Feed.extend_extend]

theorem signalStop_arrive (s : Session) (items : List Feed.Item) :
    (s.arrive items).signalStop = s.signalStop.arrive items := by
  cases hl : s.phase.link? with
  | none =>
    have hp := Phase.link?_eq_none.mp hl
    rw [arrive_of_idle hp, arrive_of_idle (s := s.signalStop) hp]
  | some link =>
    rw [arrive_eq hl, arrive_eq (s := s.signalStop) hl]
    exact map_refed signalStop rfl (fun _ => rfl) _

/-- What is taken in does not depend on what comes later, and a turn that goes on still gets it. -/
theorem apply_arrive {s : Session} (busy : s.phase ≠ .idle) (items : List Feed.Item) (d : Delivery) :
    (s.arrive items).apply d = (s.apply d).arrive items := by
  obtain ⟨link, hl⟩ := Option.ne_none_iff_exists'.mp (mt Phase.link?_eq_none.mp busy)
  rw [arrive_eq hl, apply_refed]
  rcases (kept_link link).apply d (.inr hl) with hn | hs
  · have hp := Phase.link?_eq_none.mp hn
    rw [refed_of_idle hp, arrive_of_idle hp]
  · rw [arrive_eq hs]

/-- Nothing but the feed of the link matters to whether a turn may go on. -/
def Unfinished (s : Session) : Prop := ∀ link, s.phase.link? = some link → link.feed.Unfinished

theorem Unfinished.step {s : Session} (h : s.Unfinished) : s.step.2.Unfinished := by
  intro link hl
  obtain ⟨l, hs, -, rfl⟩ := link?_step hl
  exact (h l hs).rest

theorem Unfinished.arrive {s : Session} (h : s.Unfinished) {items : List Feed.Item}
    (hi : items.getLast? ≠ some .fire) : (s.arrive items).Unfinished := by
  intro link hl
  cases hs : s.phase.link? with
  | none =>
    rw [arrive_of_idle (Phase.link?_eq_none.mp hs), hs] at hl
    cases hl
  | some l =>
    cases (link?_arrive hs items).symm.trans hl
    exact (h l hs).extend hi

/-- A step that does not wait takes in the same, whatever comes later. -/
theorem step_arrive {s : Session} (h : s.Unfinished) (hw : s.step.1 ≠ .waiting)
    (items : List Feed.Item) : (s.arrive items).step = (s.step.1, s.step.2.arrive items) := by
  have hs := stepped s
  generalize s.step = r at hs hw
  cases hs with
  | idle hp =>
    rw [arrive_of_idle hp]
    simp [step, hp, Phase.link?]
  | waits _ _ _ _ _ => exact absurd rfl hw
  | stopped link hl hf =>
    have hf' : (s.arrive items).switch.hasFired link.signal = true := by
      rwa [arrive_eq hl, switch_refed]
    rw [step_of_fired (link?_arrive hl items) hf', apply_arrive (Phase.ne_idle_of_link? hl)]
  | interrupted link hl hf hx hi =>
    rcases (h link hl).fetch with ⟨d, hd⟩ | ⟨-, hn⟩
    · cases hx.symm.trans hd
    · cases hi.symm.trans hn
  | ended link hl hf hx =>
    rcases (h link hl).fetch with ⟨d, hd⟩ | ⟨hn, -⟩
    · cases hx.symm.trans hd
    · cases hx.symm.trans hn
  | delivered link d hl hf hx =>
    have hl' := link?_arrive hl items
    have hf' : (s.arrive items).switch.hasFired link.signal = false := by
      rwa [arrive_eq hl, switch_refed]
    have hx' := Feed.fetch_extend hx items
    have asked : (s.arrive items).fetched { link with feed := link.feed.extend items } =
        (s.fetched link).arrive items := by
      rw [arrive_eq (link?_fetched hl), arrive_eq hl, refed_eq hl, refed_eq (link?_fetched hl)]
      unfold fetched
      rw [hx', Phase.withLink_withLink, Phase.withLink_withLink]
    rw [step_of_unfired hl' hf', hx', asked]
    exact congrArg _ (apply_arrive (Phase.ne_idle_of_link? (link?_fetched hl)) items d)

/-- **Calls that wait leave no trace.** -/
theorem passAll_eq (ms : List Moment) {s : Session} (h : s.Unfinished)
    (hi : ∀ items, .arrival items ∈ ms → items.getLast? ≠ some .fire) :
    s.passAll ms = (s.arrive (arrivals ms)).enactAll (s.doings ms) := by
  induction ms generalizing s with
  | nil => exact (arrive_nil s).symm
  | cons m ms ih =>
    have hi' : ∀ items, .arrival items ∈ ms → items.getLast? ≠ some .fire :=
      fun items hm => hi items (List.mem_cons_of_mem _ hm)
    cases m with
    | call =>
      change s.step.2.passAll ms = _
      rw [ih h.step hi', doings, arrivals]
      split
      · next hw => rw [step_of_not_applied (by simp [hw])]
      · next hw =>
        change _ = ((s.arrive (arrivals ms)).step.2).enactAll _
        rw [step_arrive h hw]
    | arrival items =>
      change (s.arrive items).passAll ms = _
      rw [ih (h.arrive (hi items List.mem_cons_self)) hi', arrive_arrive]
      rfl
    | signalStop =>
      change s.signalStop.passAll ms = _
      rw [ih (s := s.signalStop) h hi', ← signalStop_arrive]
      rfl

theorem passAll_of_idle (ms : List Moment) {s : Session} (hp : s.phase = .idle) :
    s.gains ms = [] ∧ (s.passAll ms).phase = .idle := by
  induction ms generalizing s with
  | nil => exact ⟨rfl, hp⟩
  | cons m ms ih =>
    cases m with
    | call =>
      have hs : s.step.2 = s := step_of_not_applied (by simp [step, hp, Phase.link?])
      have hg : s.gain = [] := by simp [gain, hp, Phase.link?]
      change s.gain ++ s.step.2.gains ms = [] ∧ (s.step.2.passAll ms).phase = .idle
      rw [hs, hg]
      exact ih hp
    | arrival items =>
      change (s.arrive items).gains ms = [] ∧ ((s.arrive items).passAll ms).phase = .idle
      rw [arrive_of_idle hp]
      exact ih hp
    | signalStop => exact ih (s := s.signalStop) hp

/-- A step takes its gain from what was to come, and a turn that goes on keeps the rest. -/
theorem pending_step (s : Session) :
    s.gain <+: s.pending ∧ (s.step.2.phase ≠ .idle → s.gain ++ s.step.2.pending = s.pending) := by
  have hu := (untouched_poised s).pending
  refine ⟨⟨_, hu⟩, fun busy => ?_⟩
  cases hd : s.due with
  | none =>
    rw [poised_of_waiting hd] at hu
    rw [step_of_not_due hd]
    exact hu
  | some d =>
    rw [step_of_due hd] at busy ⊢
    have hs : s.phase ≠ .idle := fun hp => by simp [due_of_idle hp] at hd
    obtain ⟨link, hl⟩ := Option.ne_none_iff_exists'.mp (mt Phase.link?_eq_none.mp (phase_poised hs))
    rcases (kept_link link).apply d (.inr hl) with hn | hk
    · exact absurd (Phase.link?_eq_none.mp hn) busy
    · rw [← hu, pending_eq hl]
      exact congrArg _ (pending_eq hk)

/-- **No delivery is lost, and none is taken twice.** What the calls take, and then what is still to come, is
  what was to come and came. -/
theorem gains_eq (ms : List Moment) (s : Session) :
    s.gains ms <+: s.pending ++ (arrivals ms).filterMap Feed.Item.delivery? ∧
      ((s.passAll ms).phase ≠ .idle → s.gains ms ++ (s.passAll ms).pending =
        s.pending ++ (arrivals ms).filterMap Feed.Item.delivery?) := by
  induction ms generalizing s with
  | nil => exact ⟨List.nil_prefix, fun _ => (List.append_nil _).symm⟩
  | cons m ms ih =>
    cases m with
    | call =>
      obtain ⟨hg, hr⟩ := pending_step s
      obtain ⟨hp, he⟩ := ih s.step.2
      change s.gain ++ s.step.2.gains ms <+: s.pending ++ (arrivals ms).filterMap _ ∧
        ((s.step.2.passAll ms).phase ≠ .idle → s.gain ++ s.step.2.gains ms ++ _ =
          s.pending ++ (arrivals ms).filterMap _)
      by_cases hi : s.step.2.phase = .idle
      · obtain ⟨hn, hq⟩ := passAll_of_idle ms hi
        rw [hn, List.append_nil]
        exact ⟨hg.trans (List.prefix_append _ _), fun busy => absurd hq busy⟩
      · rw [← hr hi, List.append_assoc, List.append_assoc, List.prefix_append_right_inj]
        exact ⟨hp, fun busy => congrArg _ (he busy)⟩
    | arrival items =>
      obtain ⟨hp, he⟩ := ih (s.arrive items)
      change (s.arrive items).gains ms <+: s.pending ++ (items ++ arrivals ms).filterMap _ ∧
        (((s.arrive items).passAll ms).phase ≠ .idle → (s.arrive items).gains ms ++ _ =
          s.pending ++ (items ++ arrivals ms).filterMap _)
      cases hl : s.phase.link? with
      | none =>
        have hi := Phase.link?_eq_none.mp hl
        rw [arrive_of_idle hi]
        obtain ⟨hn, hq⟩ := passAll_of_idle ms hi
        rw [hn]
        exact ⟨List.nil_prefix, fun busy => absurd hq busy⟩
      | some link =>
        have hs : (s.arrive items).pending = s.pending ++ items.filterMap Feed.Item.delivery? := by
          rw [pending_eq (link?_arrive hl items), pending_eq hl, Feed.undelivered_extend]
        rw [hs, List.append_assoc, ← List.filterMap_append] at hp he
        exact ⟨hp, he⟩
    | signalStop => exact ih s.signalStop

/-- When the signal fires during a fetch, the delivery that was fetched is what the step takes in. -/
theorem due_of_firesItself {s : Session} (hf : s.firesItself = true) {d : Delivery} {ds : List Delivery}
    (hd : s.pending = d :: ds) : s.due = some d ∧ s.gain = [d] := by
  unfold firesItself at hf
  unfold pending at hd
  unfold due gain
  cases hl : s.phase.link? with
  | none => simp [hl] at hf
  | some link => simp_all

theorem perform_step (s : Session) :
    s.perform (.step 1) = match s.due with
      | some d => (.flag true, s.poised.apply d)
      | none => if s.phase.isIdle then (.flag false, s) else (.pending, s) := by
  change (s.step.1.stepAnswer, s.step.2) = _
  rw [step_eq]
  cases s.due with
  | some d => rfl
  | none => cases s.phase.isIdle <;> rfl

/-- **A step is atomic.** At any point of any course: a step answers false just when no turn is under way, and
  then changes nothing. Otherwise it takes in what is due and answers true; up to that moment only the link
  was asked (`Untouched`), and at most one notice is sent. If nothing is due it waits, and the session is as
  it was, its link included. When the signal fires while a delivery is fetched, the delivery is still taken in,
  and the next step of a turn that goes on is the abort. However often a call has to wait, is dropped and is
  made again, and whatever comes or is stopped meanwhile: no delivery is lost and none taken twice, and if the
  signal does not fire during a pause, all comes to what it would have come to if everything had been there at
  the start and no call had waited. -/
theorem atomic_course (matching : Matching) (transport : Transport) (mint : Mint)
    (ops : List (Int × Operation)) :
    let s := (create matching transport mint).course ops
    ((s.perform (.step 1)).1 = .flag false ↔ s.phase = .idle) ∧
      (s.phase = .idle → (s.perform (.step 1)).2 = s) ∧
      (∀ d, s.due = some d → s.perform (.step 1) = (.flag true, s.poised.apply d)) ∧
      Untouched s s.poised ∧
      TellsAtMost 1 s (s.perform (.step 1)).2 ∧
      (s.phase ≠ .idle → s.due = none → s.perform (.step 1) = (.pending, s) ∧ s.poised = s) ∧
      (s.firesItself = true → ∀ d ds, s.pending = d :: ds →
        let t := (s.perform (.step 1)).2
        t = s.poised.apply d ∧
          (t.phase ≠ .idle → t.pending = ds ∧ t.perform (.step 1) = (.flag true, t.stop))) ∧
      ∀ ms,
        (let given := s.pending ++ (arrivals ms).filterMap Feed.Item.delivery?
         s.gains ms <+: given ∧
          ((s.passAll ms).phase ≠ .idle → s.gains ms ++ (s.passAll ms).pending = given)) ∧
          (s.Unfinished → (∀ items, .arrival items ∈ ms → items.getLast? ≠ some .fire) →
            s.passAll ms = (s.arrive (arrivals ms)).enactAll (s.doings ms)) := by
  intro s
  have owned := owned_of_course matching transport mint ops
  refine ⟨?idle, ?still, ?due, untouched_poised s, tellsAtMost_step s, ?waits, ?fires, fun ms =>
    ⟨gains_eq ms s, passAll_eq ms⟩⟩
  case idle =>
    rw [perform_step, ← Phase.isIdle_iff]
    cases hd : s.due with
    | none => cases s.phase.isIdle <;> simp
    | some d =>
      have busy : s.phase.isIdle ≠ true := fun hp => by
        cases (due_of_idle (Phase.isIdle_iff.mp hp)).symm.trans hd
      simp [busy]
  case still =>
    intro hp
    rw [perform_step, due_of_idle hp]
    cases s.phase.isIdle <;> rfl
  case due =>
    intro d hd
    rw [perform_step, hd]
  case waits =>
    intro busy hd
    rw [perform_step, hd]
    exact ⟨if_neg (mt Phase.isIdle_iff.mp busy), poised_of_waiting hd⟩
  case fires =>
    intro hf d ds hp
    obtain ⟨hd, hg⟩ := due_of_firesItself hf hp
    refine ⟨by rw [perform_step, hd], fun busy => ⟨?_, ?_⟩⟩
    · have hr := (pending_step s).2 busy
      rw [hg, hp] at hr
      exact (List.cons.inj hr).2
    · change (s.step.2.step.1.stepAnswer, s.step.2.step.2) = _
      rw [owned.step_of_firesItself hf busy]
      rfl

/-- A signal that fires while text is fetched, before a pause in which a call waits twice. -/
theorem atomic_course_of_pause :
    let begun (items : List Feed.Item) :=
      (create .oldest
        ⟨[.accepted ⟨.deliver (.event (.start "c1")) :: items, true⟩], .refused "no route"⟩
        ⟨fun n => ["u1", "r1"][n]?.getD "", 0, 0⟩).course [(1700, .send "Hi"), (1700, .step 1)]
    let s := begun [.fire, .deliver (.event (.delta "Hel"))]
    let t := (s.perform (.step 1)).2
    t.perform (.step 1) = (.flag true, t.stop) ∧ t.snapshot.buffer = "Hel" ∧
      let u := begun []
      let ms : List Moment :=
        [.call, .call, .arrival [.fire, .deliver (.event (.delta "Hel"))], .call, .call]
      u.passAll ms = (u.arrive (arrivals ms)).enactAll [.step, .step] ∧
        u.gains ms = [.event (.delta "Hel")] := by
  intro begun s t
  have hs := (atomic_course .oldest _ _ [(1700, .send "Hi"), (1700, .step 1)]).2.2.2.2.2.2.1
    (by decide : s.firesItself = true) (.event (.delta "Hel")) [] (by decide)
  refine ⟨(hs.2 (by decide)).2, by decide, ?_⟩
  intro u ms
  have hu : u.Unfinished := by
    intro link hl
    cases hl
    exact ⟨rfl, by decide⟩
  have hi : ∀ items, .arrival items ∈ ms → items.getLast? ≠ some .fire := by
    intro items hm
    simp only [ms, List.mem_cons, reduceCtorEq, Moment.arrival.injEq, false_or, or_false,
      List.not_mem_nil] at hm
    simp [hm]
  exact ⟨((atomic_course _ _ _ _).2.2.2.2.2.2.2 ms).2 hu hi, by decide⟩

end Session

end Converse
