import Converse.Proofs.Talk.Growth
import Converse.Proofs.Talk.Meaning
import Converse.Proofs.Talk.Stepping
import Mathlib.Data.List.Destutter

/-
  Noise is not heard.

  `hushed` is what is left of a session without what noise does to it: the count of dropped frames, the log, and
  the snapshots it published, which noise repeats. What is taken in without being noise depends on the hushed
  session only, and noise leaves it as it is (`hushed_apply`, `hushed_noise`). So links that differ in noise
  lead to sessions that are alike, and `noise_course` is the result.
-/

namespace List

variable {α : Type*} [DecidableEq α]

/-- Something at the end of a list is a repetition, or it is kept. -/
theorem destutter'_append_singleton (l : List α) (a x : α) :
    (l ++ [x]).destutter' (· ≠ ·) a =
      if l.getLast?.getD a = x then l.destutter' (· ≠ ·) a
      else l.destutter' (· ≠ ·) a ++ [x] := by
  induction l generalizing a with
  | nil => by_cases h : a = x <;> simp [h]
  | cons b l ih =>
    have hl : (b :: l).getLast?.getD a = l.getLast?.getD b := by
      rw [getLast?_cons, Option.getD_some]
    rw [cons_append, destutter'_cons, destutter'_cons, hl, ih, ih]
    split
    · split <;> rfl
    · next h =>
      cases not_not.mp h
      rfl

theorem destutter_append_singleton (l : List α) (x : α) :
    (l ++ [x]).destutter (· ≠ ·) =
      if l.getLast? = some x then l.destutter (· ≠ ·) else l.destutter (· ≠ ·) ++ [x] := by
  cases l with
  | nil => rfl
  | cons a l =>
    have hl : (a :: l).getLast? = some (l.getLast?.getD a) := getLast?_cons
    simp only [cons_append, destutter_cons', destutter'_append_singleton, hl, Option.some.injEq]

theorem getLast?_destutter (l : List α) : (l.destutter (· ≠ ·)).getLast? = l.getLast? := by
  induction l using List.reverseRecOn with
  | nil => rfl
  | append_singleton l x ih =>
    rw [destutter_append_singleton, getLast?_concat]
    split
    · next h => rw [ih, h]
    · exact getLast?_concat

end List

namespace Converse

namespace Delivery

def isDropped : Delivery → Bool
  | .dropped _ => true
  | _ => false

def isStart : Delivery → Bool
  | .event (.start _) => true
  | _ => false

/-- Whether a turn goes on with what it hears: first with the start of its reply, then with its pieces. -/
def goesOn (d : Delivery) (begun : Bool) : Bool := if begun then d.isPiece else d.isStart

/-- What comes while a turn goes on, up to the delivery that ends it. -/
def duringTurn (begun : Bool) : List Delivery → List Delivery
  | [] => []
  | d :: ds =>
    if d.isNoise then d :: duringTurn begun ds
    else if d.goesOn begun then d :: duringTurn true ds
    else []

theorem isDropped_of_heard {d : Delivery} (hn : d.isNoise = false) : d.isDropped = false := by
  cases d with
  | dropped _ => cases hn
  | _ => rfl

end Delivery

namespace Session

/-! ## What is left without noise -/

def hushed (s : Session) : Session :=
  { s with
    dropped := 0
    journal := { s.journal with published := [], remarks := [] } }

/-- Sessions that differ in nothing but what noise does. -/
structure SameButNoise (s t : Session) : Prop where
  hushed : s.hushed = t.hushed
  published : s.journal.published.destutter (· ≠ ·) = t.journal.published.destutter (· ≠ ·)

namespace SameButNoise

variable {s t u : Session}

theorem refl (s : Session) : SameButNoise s s := ⟨rfl, rfl⟩

theorem symm (h : SameButNoise s t) : SameButNoise t s := ⟨h.hushed.symm, h.published.symm⟩

theorem trans (h : SameButNoise s t) (h' : SameButNoise t u) : SameButNoise s u :=
  ⟨h.hushed.trans h'.hushed, h.published.trans h'.published⟩

theorem phase (h : SameButNoise s t) : s.phase = t.phase := (congrArg Session.phase h.hushed :)

theorem switch (h : SameButNoise s t) : s.switch = t.switch := (congrArg Session.switch h.hushed :)

theorem snapshot (h : SameButNoise s t) : s.snapshot = t.snapshot :=
  (congrArg Session.snapshot h.hushed :)

end SameButNoise

theorem hushed_finishTool (s : Session) (tool : String) (success : Bool) (summary : Option String) :
    (s.finishTool tool success summary).hushed = (s.hushed.finishTool tool success summary).hushed := by
  have ht : s.hushed.tools = s.tools := rfl
  unfold finishTool
  rw [ht]
  cases s.tools.finish tool success summary with
  | some r => rfl
  | none =>
    dsimp only
    split <;> rfl

theorem hushed_receive (s : Session) (e : Reply.Event) :
    (s.receive e).hushed = (s.hushed.receive e).hushed := by
  have hp' : s.hushed.phase = s.phase := rfl
  cases hp : s.phase with
  | idle =>
    simp only [receive, hp', hp]
    rfl
  | awaiting link => cases e <;> simp only [receive, hp', hp] <;> rfl
  | streaming link draft =>
    cases e with
    | toolEnd tool success summary =>
      simp only [receive, hp', hp]
      exact hushed_finishTool s tool success summary
    | _ =>
      simp only [receive, hp', hp]
      rfl

theorem hushed_abort (s : Session) : s.abort.hushed = s.hushed.abort.hushed := by
  have hp' : s.hushed.phase = s.phase := rfl
  unfold abort
  rw [hp']
  cases s.phase with
  | streaming link draft =>
    dsimp only
    split <;> rfl
  | _ => rfl

theorem hushed_close (s : Session) (ending : Ending) :
    (s.close ending).hushed = (s.hushed.close ending).hushed := by
  have hp' : s.hushed.phase = s.phase := rfl
  cases ending with
  | aborted => exact hushed_abort s
  | _ =>
    simp only [close, hp']
    split <;> rfl

/-- What is taken in depends on the hushed session only. -/
theorem hushed_apply (s : Session) (d : Delivery) : (s.apply d).hushed = (s.hushed.apply d).hushed := by
  cases d with
  | event e => exact hushed_receive s e
  | closed ending => exact hushed_close s ending
  | _ => rfl

/-- Noise leaves the hushed session as it is. -/
theorem hushed_noise {d : Delivery} (hd : d.isNoise = true) (s : Session) :
    (s.apply d).hushed = s.hushed := by
  cases d with
  | opened => rfl
  | dropped _ => rfl
  | _ => simp [Delivery.isNoise] at hd

theorem hushed_refed (s : Session) (feed : Feed) : (s.refed feed).hushed = s.hushed.refed feed := by
  have hp' : s.hushed.phase = s.phase := rfl
  unfold refed
  rw [hp']
  split <;> rfl

namespace SameButNoise

variable {s t : Session}

theorem apply (h : SameButNoise s t) (d : Delivery) : SameButNoise (s.apply d) (t.apply d) := by
  have ha : (s.apply d).hushed = (t.apply d).hushed := by
    rw [hushed_apply s, hushed_apply t, h.hushed]
  have hs : (s.apply d).snapshot = (t.apply d).snapshot := (congrArg Session.snapshot ha :)
  have hl : s.journal.published.getLast? = t.journal.published.getLast? := by
    rw [← List.getLast?_destutter, ← List.getLast?_destutter t.journal.published, h.published]
  refine ⟨ha, ?_⟩
  rw [published_apply, published_apply, List.destutter_append_singleton,
    List.destutter_append_singleton, hs, hl, h.published]

/-- Noise repeats the snapshot that was published last. -/
theorem noise {d : Delivery} (h : SameButNoise s t) (hd : d.isNoise = true)
    (hl : t.journal.published.getLast? = some t.snapshot) : SameButNoise s (t.apply d) := by
  have hn := hushed_noise hd t
  have hs : (t.apply d).snapshot = t.snapshot := (congrArg Session.snapshot hn :)
  refine ⟨h.hushed.trans hn.symm, ?_⟩
  rw [published_apply, List.destutter_append_singleton, hs, if_pos hl, h.published]

theorem refed (h : SameButNoise s t) (feed : Feed) : SameButNoise (s.refed feed) (t.refed feed) := by
  refine ⟨by rw [hushed_refed, hushed_refed, h.hushed], ?_⟩
  have hj (u : Session) : (u.refed feed).journal = u.journal := by
    unfold Session.refed
    split <;> rfl
  rw [hj, hj, h.published]

end SameButNoise

/-! ## What a turn that goes on takes in -/

/-- Each dropped frame counts once, and nothing else counts. -/
theorem dropped_apply (s : Session) (d : Delivery) :
    (s.apply d).dropped = s.dropped + if d.isDropped then 1 else 0 := by
  cases d with
  | opened => rfl
  | dropped _ => rfl
  | event e => exact (receive_frame s e).1
  | closed ending => exact (close_frame s ending).1

/-- However a link ends, the turn ends with it. -/
theorem phase_apply_closed {s : Session} (busy : s.phase ≠ .idle) (ending : Ending) :
    (s.apply (.closed ending)).phase = .idle := by
  have hi : s.phase.isIdle = false := Bool.eq_false_iff.mpr (mt Phase.isIdle_iff.mp busy)
  rw [apply_closed]
  cases ending with
  | aborted => exact abort_phase s
  | _ =>
    simp only [close, hi]
    rfl

/-- Whether a turn goes on after a delivery that is not noise. -/
theorem apply_heard {s : Session} {d : Delivery} (busy : s.phase ≠ .idle) (hn : d.isNoise = false) :
    if d.goesOn s.snapshot.streaming then
      (s.apply d).phase.link? = s.phase.link? ∧ (s.apply d).switch = s.switch ∧
        (s.apply d).snapshot.streaming = true
    else (s.apply d).phase = .idle := by
  cases hp : s.phase with
  | idle => exact absurd hp busy
  | awaiting link =>
    have hs : s.snapshot.streaming = false := by simp [snapshot, hp, Phase.stage]
    rw [hs]
    change if d.isStart then _ else _
    cases d with
    | opened => simp [Delivery.isNoise] at hn
    | dropped _ => simp [Delivery.isNoise] at hn
    | event e =>
      rw [apply_event]
      cases e with
      | start _ =>
        simp only [receive, hp]
        exact ⟨rfl, rfl, rfl⟩
      | _ =>
        simp only [receive, hp]
        rfl
    | closed ending => exact phase_apply_closed busy ending
  | streaming link draft =>
    have hs : s.snapshot.streaming = true := by simp [snapshot, hp, Phase.stage]
    rw [hs]
    change if d.isPiece then _ else _
    cases hd : d.isPiece with
    | true =>
      obtain ⟨grown, hg, hsw, -⟩ := apply_piece hp hd
      refine ⟨by rw [hg]; rfl, hsw, ?_⟩
      simp [snapshot, hg, Phase.stage]
    | false =>
      cases d with
      | opened => simp [Delivery.isNoise] at hn
      | dropped _ => simp [Delivery.isNoise] at hn
      | event e =>
        rw [apply_event]
        cases e with
        | stop => simp only [receive, hp]; rfl
        | start _ => simp only [receive, hp]; rfl
        | error _ _ => simp only [receive, hp]; rfl
        | _ => simp [Delivery.isPiece] at hd
      | closed ending => exact phase_apply_closed busy ending

/-! ## Runs -/

/-- A turn is under way and its signal has not fired. -/
def Uncancelled (s : Session) : Prop :=
  ∃ link, s.phase.link? = some link ∧ s.switch.hasFired link.signal = false

/-- A run takes in what comes first, and goes on with the rest. -/
theorem run_refed_cons {s : Session} (h : s.Uncancelled) (d : Delivery) (es : List Delivery)
    (hangs : Bool) :
    (s.refed (.ofDeliveries (d :: es) hangs)).run =
      ((s.apply d).refed (.ofDeliveries es hangs)).run := by
  obtain ⟨link, hl, hf⟩ := h
  refine run_of_applied ?_
  rw [← apply_refed, refed_eq hl (.ofDeliveries es hangs)]
  exact step_refed hl hf rfl

/-- A run over a link with nothing left waits, or the turn fails. -/
theorem run_refed_nil {s : Session} (h : s.Uncancelled) (hangs : Bool) :
    (s.refed (.ofDeliveries [] hangs)).run =
      if hangs then (.waiting, s.refed (.ofDeliveries [] true))
      else (.nothing, (s.remark .endedSilently).apply (.closed .normal)) := by
  obtain ⟨link, hl, hf⟩ := h
  have hl' := link?_refed hl (.ofDeliveries [] hangs)
  rw [← switch_refed s (.ofDeliveries [] hangs)] at hf
  have hs := step_of_unfired hl' hf
  cases hangs with
  | true =>
    have hw : (s.refed (.ofDeliveries [] true)).step = (.waiting, s.refed (.ofDeliveries [] true)) := hs
    exact (run_of_not_applied (by simp [hw])).trans hw
  | false =>
    have asked :
        ((s.refed (.ofDeliveries [] false)).fetched ⟨link.signal, .ofDeliveries [] false⟩).remark
          .endedSilently = (s.remark .endedSilently).refed (.ofDeliveries [] false) := by
      rw [refed_eq hl, refed_eq (s := s.remark .endedSilently) hl]
      unfold fetched
      rw [Phase.withLink_withLink]
      rfl
    have hp : ((s.remark .endedSilently).apply (.closed .normal)).phase = .idle :=
      phase_apply_closed (s := s.remark .endedSilently) (Phase.ne_idle_of_link? hl) .normal
    have ha : (s.refed (.ofDeliveries [] false)).step =
        (.applied, (s.remark .endedSilently).apply (.closed .normal)) := by
      refine hs.trans (congrArg (Prod.mk _) ?_)
      rw [asked, apply_refed, refed_of_idle hp]
    exact (run_of_applied ha).trans (run_of_idle hp)

theorem Uncancelled.busy {s : Session} (h : s.Uncancelled) : s.phase ≠ .idle := by
  obtain ⟨link, hl, -⟩ := h
  exact Phase.ne_idle_of_link? hl

theorem SameButNoise.uncancelled {s t : Session} (h : SameButNoise s t) (hu : s.Uncancelled) :
    t.Uncancelled := by
  unfold Uncancelled
  rw [← h.phase, ← h.switch]
  exact hu

/-- **A run over all that comes and a run over what is heard of it come to the same**, and the dropped frames
  are those that come while the turn goes on. -/
theorem run_heard (es : List Delivery) (hangs : Bool) {s t : Session} (h : SameButNoise s t)
    (hu : s.Uncancelled) (hl : t.journal.published.getLast? = some t.snapshot) :
    let r := (s.refed (.ofDeliveries (Delivery.heard es) hangs)).run
    let u := (t.refed (.ofDeliveries es hangs)).run
    u.1 = r.1 ∧ SameButNoise r.2 u.2 ∧
      u.2.dropped =
        t.dropped + (Delivery.duringTurn s.snapshot.streaming es).countP Delivery.isDropped := by
  induction es generalizing s t with
  | nil =>
    intro r u
    have hr : r = _ := run_refed_nil hu hangs
    have ht : u = _ := run_refed_nil (h.uncancelled hu) hangs
    rw [hr, ht]
    cases hangs with
    | true =>
      refine ⟨rfl, h.refed _, ?_⟩
      change (t.refed _).dropped = t.dropped
      unfold refed
      split <;> rfl
    | false =>
      have hs : SameButNoise (s.remark .endedSilently) (t.remark .endedSilently) :=
        ⟨h.hushed, h.published⟩
      exact ⟨rfl, hs.apply (.closed .normal),
        dropped_apply (t.remark .endedSilently) (.closed .normal)⟩
  | cons d es ih =>
    intro r u
    have ht : u = _ := run_refed_cons (h.uncancelled hu) d es hangs
    have hlast : (t.apply d).journal.published.getLast? = some (t.apply d).snapshot := by
      rw [published_apply, List.getLast?_concat]
    have hd := dropped_apply t d
    cases hn : d.isNoise with
    | true =>
      have hr : r = (s.refed (.ofDeliveries (Delivery.heard es) hangs)).run := by
        change (s.refed (.ofDeliveries (Delivery.heard (d :: es)) hangs)).run = _
        rw [Delivery.heard_noise hn]
      rw [hr, ht]
      obtain ⟨ha, hs, hc⟩ := ih (h.noise hn hl) hu hlast
      refine ⟨ha, hs, ?_⟩
      rw [hc, hd, Delivery.duringTurn, if_pos hn, List.countP_cons]
      omega
    | false =>
      have hr : r = ((s.apply d).refed (.ofDeliveries (Delivery.heard es) hangs)).run := by
        change (s.refed (.ofDeliveries (Delivery.heard (d :: es)) hangs)).run = _
        rw [Delivery.heard_cons hn]
        exact run_refed_cons hu d _ hangs
      rw [hr, ht]
      have hs := h.apply d
      have hg := apply_heard hu.busy hn
      rw [Delivery.duringTurn, if_neg (by simp [hn])]
      have hz : (t.apply d).dropped = t.dropped := by simp [hd, Delivery.isDropped_of_heard hn]
      cases hc : d.goesOn s.snapshot.streaming with
      | true =>
        rw [hc] at hg
        obtain ⟨hk, hw, hb⟩ := hg
        obtain ⟨link, hlk, hf⟩ := hu
        have hu' : (s.apply d).Uncancelled := ⟨link, hk.trans hlk, hw ▸ hf⟩
        obtain ⟨ha, hs', hd'⟩ := ih hs hu' hlast
        refine ⟨ha, hs', ?_⟩
        rw [hd', hz, hb, if_pos rfl, List.countP_cons, Delivery.isDropped_of_heard hn]
        rfl
      | false =>
        rw [hc] at hg
        have hi : (t.apply d).phase = .idle := hs.phase ▸ hg
        rw [refed_of_idle hg, refed_of_idle hi, run_of_idle hg, run_of_idle hi]
        exact ⟨rfl, hs, hz⟩

/-- No deed takes back what was counted. -/
theorem dropped_le_enactAll (ds : List Deed) (s : Session) : s.dropped ≤ (s.enactAll ds).dropped := by
  induction ds generalizing s with
  | nil => exact Nat.le_refl _
  | cons d ds ih =>
    refine Nat.le_trans ?_ (ih (s.enact d))
    by_cases hd : d = .clear
    · rw [hd]
      exact Nat.le_refl _
    · exact (prolongs_enact s hd).dropped

/-- **Noise is not heard.** Let a turn be under way in any reachable session, not cancelled, and compare two
  things its link may deliver that differ in nothing but noise, wherever it comes and however much of it. Both
  runs answer the same and send the same notices, the sessions show the same and go through the same snapshots
  up to repetitions; all else but the log is the same too. The dropped frames are those that came before the
  delivery that ends the turn, and nothing that is done later takes them back, not even a clearing. -/
theorem noise_course (matching : Matching) (transport : Transport) (mint : Mint)
    (ops : List (Int × Operation)) (es es' : List Delivery) (hangs : Bool)
    (uncancelled : ((create matching transport mint).course ops).Uncancelled)
    (same : Delivery.heard es' = Delivery.heard es) :
    let s := (create matching transport mint).course ops
    let r := (s.refed (.ofDeliveries es hangs)).run
    let r' := (s.refed (.ofDeliveries es' hangs)).run
    r'.1 = r.1 ∧
      r'.2.journal.notices = r.2.journal.notices ∧
      r'.2.snapshot = r.2.snapshot ∧
      r'.2.journal.published.destutter (· ≠ ·) = r.2.journal.published.destutter (· ≠ ·) ∧
      r'.2.hushed = r.2.hushed ∧
      r'.2.dropped =
        s.dropped + (Delivery.duringTurn s.snapshot.streaming es').countP Delivery.isDropped ∧
      r'.2.clear.dropped = r'.2.dropped ∧
      ∀ later, r'.2.dropped ≤ (r'.2.course later).dropped := by
  intro s r r'
  have published : s.journal.published.getLast? = some s.snapshot := by
    have hl : s.journal.published.getLast?.getD .initial = s.snapshot :=
      latest_course matching transport mint ops
    cases hp : s.journal.published.getLast? with
    | some p => rw [← hl, hp]; rfl
    | none =>
      -- nothing was published, so the session shows what it showed when it was created: it is idle
      rw [hp] at hl
      have hi : s.phase.stage = .idle := (congrArg Snapshot.stage hl).symm
      refine absurd ?_ uncancelled.busy
      change s.phase = .idle
      cases hq : s.phase with
      | idle => rfl
      | _ => simp [hq, Phase.stage] at hi
  obtain ⟨ha, hs, -⟩ := run_heard es hangs (.refl s) uncancelled published
  obtain ⟨ha', hs', hd'⟩ := run_heard es' hangs (.refl s) uncancelled published
  rw [same] at ha' hs'
  have h : SameButNoise r'.2 r.2 := hs'.symm.trans hs
  refine ⟨ha'.trans ha.symm, (congrArg (·.journal.notices) h.hushed :), h.snapshot, h.published,
    h.hushed, hd', rfl, fun later => ?_⟩
  rw [course_eq_enactAll]
  exact dropped_le_enactAll _ _

/-- Noise before the reply starts, within it, at its end and after it. -/
theorem noise_course_of_reply :
    let es : List Delivery := [.event (.start "c1"), .event (.delta "Hel"), .event .stop]
    let es' : List Delivery := [.opened, .dropped none, .event (.start "c1"), .opened,
      .event (.delta "Hel"), .dropped none, .event .stop, .dropped none]
    let s := (create .oldest ⟨[.accepted (.ofDeliveries [] true)], .refused "no route"⟩
      ⟨fun n => ["u1", "r1"][n]?.getD "", 0, 0⟩).course [(1700, .send "Hi")]
    let r := (s.refed (.ofDeliveries es true)).run
    let r' := (s.refed (.ofDeliveries es' true)).run
    s.Uncancelled ∧ Delivery.heard es' = Delivery.heard es ∧
      r'.2.snapshot = r.2.snapshot ∧ r'.2.dropped = 2 := by
  intro es es' s r r'
  have hu : s.Uncancelled := ⟨_, rfl, by decide⟩
  have same : Delivery.heard es' = Delivery.heard es := by decide
  obtain ⟨-, -, hs, -, -, hd, -⟩ := noise_course _ _ _ [(1700, .send "Hi")] es es' true hu same
  exact ⟨hu, same, hs, hd⟩

end Session

end Converse
