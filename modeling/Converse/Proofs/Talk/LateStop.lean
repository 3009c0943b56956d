import Converse.Proofs.Talk.Likeness
import Converse.Proofs.Talk.Ownership

/-
  Stops from outside that come too late.

  A stop fires the signal of the latest turn. If that turn is over, or its signal was hit before, nothing is
  left to stop, and the next turn has a signal of its own. So two sessions that differ in signals nobody looks
  at any more (`Relit`) stay so whatever is done to both. `late_stop_course` is the result: late stops put
  into a course wherever one likes cannot be seen, but for the signal of a refused request.
-/

namespace Converse.Session

/-- The session with other signals fired. -/
def relit (s : Session) (fired : List Bool) : Session :=
  { s with switch := { s.switch with fired := fired } }

/-- Sessions that differ in nothing but signals: more have fired in the second, but not that of the turn under
  way. -/
structure Relit (s t : Session) : Prop where
  same : t = s.relit t.switch.fired
  size : t.switch.fired.length = s.switch.fired.length
  more : ∀ i, s.switch.hasFired i = true → t.switch.hasFired i = true
  link : ∀ l, s.phase.link? = some l → t.switch.hasFired l.signal = s.switch.hasFired l.signal

namespace Relit

variable {s t : Session}

theorem refl (s : Session) : Relit s s := ⟨rfl, rfl, fun _ h => h, fun _ _ => rfl⟩

theorem phase (h : Relit s t) : t.phase = s.phase := by
  rw [h.same]
  rfl

/-- A change that neither looks at the signals nor fires one, and opens no link. -/
theorem of_frame (h : Relit s t) (s' : Session) (hs : s'.switch.fired = s.switch.fired)
    (hl : ∀ l, s'.phase.link? = some l → ∃ k, s.phase.link? = some k ∧ k.signal = l.signal) :
    Relit s' (s'.relit t.switch.fired) where
  same := rfl
  size := h.size.trans (congrArg _ hs.symm)
  more i := by
    have hm := h.more i
    unfold Switch.hasFired at hm ⊢
    rw [hs]
    exact hm
  link l hl' := by
    obtain ⟨k, hk, he⟩ := hl l hl'
    have hm := h.link k hk
    unfold Switch.hasFired at hm ⊢
    rw [hs, ← he]
    exact hm

/-- A signal that fires in both sessions. -/
theorem fire (h : Relit s t) (i : Nat) :
    Relit { s with switch := s.switch.fire i } { t with switch := t.switch.fire i } where
  same := by
    rw [h.same]
    rfl
  size := by
    change (t.switch.fired.set i true).length = (s.switch.fired.set i true).length
    rw [List.length_set, List.length_set, h.size]
  more k := by
    change (s.switch.fire i).hasFired k = true → (t.switch.fire i).hasFired k = true
    rw [Switch.hasFired_fire_eq, Switch.hasFired_fire_eq, h.size, Bool.or_eq_true, Bool.or_eq_true]
    exact Or.imp_right (h.more k)
  link l hl := by
    change (t.switch.fire i).hasFired l.signal = (s.switch.fire i).hasFired l.signal
    rw [Switch.hasFired_fire_eq, Switch.hasFired_fire_eq, h.size, h.link l hl]

/-- A change that has nothing to do with signals and links. -/
theorem map (h : Relit s t) (g : Session → Session) (hg : ∀ s fired, g (s.relit fired) = (g s).relit fired)
    (hs : (g s).switch.fired = s.switch.fired) (hl : (g s).phase.link? = s.phase.link?) :
    Relit (g s) (g t) := by
  rw [h.same, hg]
  exact h.of_frame _ hs fun l hk => ⟨l, hl ▸ hk, rfl⟩

/-! ## What happens in a turn and at its end -/

theorem remark (h : Relit s t) (r : Remark) : Relit (s.remark r) (t.remark r) :=
  h.map (·.remark r) (fun _ _ => rfl) rfl rfl

theorem publish (h : Relit s t) : Relit s.publish t.publish :=
  h.map (·.publish) (fun _ _ => rfl) rfl rfl

/-- A turn that ends fires its signal. -/
theorem leave (h : Relit s t) : Relit s.leave t.leave := by
  unfold Session.leave
  rw [h.phase]
  cases s.phase.link? with
  | none =>
    rw [h.same]
    exact h.of_frame { s with phase := .idle } rfl nofun
  | some l =>
    have hf := h.fire l.signal
    rw [h.same] at hf ⊢
    exact hf.of_frame { s with phase := .idle, switch := s.switch.fire l.signal } rfl nofun

theorem fail (h : Relit s t) (m : Mishap) : Relit (s.fail m) (t.fail m) :=
  h.leave.map
    (fun s => ({ (s.dropTools.remark .turnFailed) with mishap := some m }.rest).announce (.turnFailed m))
    (fun _ _ => rfl) rfl rfl

theorem complete (h : Relit s t) (draft : Message) : Relit (s.complete draft) (t.complete draft) := by
  have ht : t.tools = s.tools := by rw [h.same]; rfl
  unfold Session.complete
  rw [ht]
  exact h.leave.map
    (fun u => (((u.keep draft).remark .turnFinalized).rest).announce
      (.turnFinalized (draft.finish s.tools.runs))) (fun _ _ => rfl) rfl rfl

theorem abort (h : Relit s t) : Relit s.abort t.abort := by
  have ht : t.tools = s.tools := by rw [h.same]; rfl
  have dropped := h.leave.map
    (fun u => (((u.dropTools).remark .turnCancelled).rest).announce (.turnCancelled none))
    (fun _ _ => rfl) rfl rfl
  unfold Session.abort
  rw [h.phase, ht]
  cases s.phase with
  | idle => exact h
  | awaiting l => exact dropped
  | streaming l draft =>
    dsimp only
    split
    · exact dropped
    · exact h.leave.map
        (fun u => (((u.keep draft).remark .turnCancelled).rest).announce
          (.turnCancelled (some (draft.finish s.tools.runs)))) (fun _ _ => rfl) rfl rfl

theorem finishTool_relit (s : Session) (fired : List Bool) (tool : String) (success : Bool)
    (summary : Option String) :
    (s.relit fired).finishTool tool success summary = (s.finishTool tool success summary).relit fired := by
  have ht : (s.relit fired).tools = s.tools := rfl
  simp only [finishTool, ht]
  cases s.tools.finish tool success summary with
  | some r => rfl
  | none =>
    dsimp only
    split <;> rfl

theorem receive (h : Relit s t) (e : Reply.Event) : Relit (s.receive e) (t.receive e) := by
  unfold Session.receive
  rw [h.phase]
  cases hp : s.phase with
  | idle => exact h.remark _
  | awaiting l =>
    cases e with
    | start conversation =>
      rw [h.same]
      refine h.of_frame (s.startReply l conversation) rfl ?_
      intro k hk
      exact ⟨k, by rw [hp]; exact hk, rfl⟩
    | _ => exact h.fail _
  | streaming l draft =>
    cases e with
    | delta content =>
      rw [h.same]
      refine h.of_frame ({ s with phase := .streaming l (draft.append content) }.announce _) rfl ?_
      intro k hk
      exact ⟨k, by rw [hp]; exact hk, rfl⟩
    | toolStart tool arguments =>
      exact h.map (·.startTool tool arguments) (fun _ _ => rfl) rfl rfl
    | toolEnd tool success summary =>
      refine h.map (·.finishTool tool success summary)
        (fun s fired => finishTool_relit s fired tool success summary) ?_ ?_
      · rw [finishTool_eq]
      · rw [finishTool_eq]
    | stop => exact h.complete draft
    | start _ => exact h.fail _
    | error _ _ => exact h.fail _

theorem close (h : Relit s t) (ending : Ending) : Relit (s.close ending) (t.close ending) := by
  cases ending with
  | aborted => exact h.abort
  | normal =>
    simp only [Session.close, h.phase]
    split
    · exact h
    · exact h.fail _
  | failed failure =>
    simp only [Session.close, h.phase]
    split
    · exact h
    · exact (h.remark _).fail _

theorem apply (h : Relit s t) (d : Delivery) : Relit (s.apply d) (t.apply d) := by
  unfold Session.apply
  apply publish
  cases d with
  | opened => exact h.remark _
  | dropped _ =>
    exact h.map (fun s => { s with dropped := s.dropped + 1 }.remark .frameDropped)
      (fun _ _ => rfl) rfl rfl
  | event e => exact h.receive e
  | closed ending => exact h.close ending

/-! ## Deeds -/

theorem fetched (h : Relit s t) {l : Link} (hl : s.phase.link? = some l) :
    Relit (s.fetched l) (t.fetched l) := by
  have hl' : ∀ k, (s.fetched l).phase.link? = some k →
      ∃ j, s.phase.link? = some j ∧ j.signal = k.signal := by
    intro k hk
    rw [link?_fetched hl] at hk
    cases hk
    exact ⟨l, hl, rfl⟩
  unfold Session.fetched at hl' ⊢
  rw [h.phase]
  split
  · have hf := h.fire l.signal
    rw [h.same] at hf ⊢
    exact hf.of_frame _ rfl hl'
  · rw [h.same]
    exact h.of_frame _ rfl hl'

theorem step (h : Relit s t) : t.step.1 = s.step.1 ∧ Relit s.step.2 t.step.2 := by
  cases hl : s.phase.link? with
  | none =>
    have hs : s.step = (.nothing, s) := by simp [Session.step, hl]
    have ht : t.step = (.nothing, t) := by simp [Session.step, h.phase, hl]
    rw [hs, ht]
    exact ⟨rfl, h⟩
  | some l =>
    have hl' : t.phase.link? = some l := by rw [h.phase, hl]
    have hf := h.link l hl
    cases hs : s.switch.hasFired l.signal with
    | true =>
      rw [step_of_fired hl hs, step_of_fired hl' (hf.trans hs)]
      exact ⟨rfl, h.apply (.closed .aborted)⟩
    | false =>
      have hr := h.fetched hl
      rw [step_of_unfired hl hs, step_of_unfired hl' (hf.trans hs)]
      cases l.feed.fetch.1 with
      | delivery d => exact ⟨rfl, hr.apply d⟩
      | ended => exact ⟨rfl, (hr.remark .endedSilently).apply (.closed .normal)⟩
      | nothing =>
        dsimp only
        split
        · exact ⟨rfl, hr.apply (.closed .aborted)⟩
        · exact ⟨rfl, h⟩

theorem begin (h : Relit s t) :
    Relit { s with switch := s.switch.begin, transport := s.transport.next.2 }
      { t with switch := t.switch.begin, transport := t.transport.next.2 } where
  same := by
    have hi : t.switch.begin.installed = s.switch.begin.installed := h.size
    unfold Switch.begin at hi ⊢
    dsimp only at hi ⊢
    rw [hi, h.same]
    rfl
  size := by
    change (t.switch.fired ++ [false]).length = (s.switch.fired ++ [false]).length
    rw [List.length_append, List.length_append, h.size]
  more i := by
    change s.switch.begin.hasFired i = true → t.switch.begin.hasFired i = true
    rw [Switch.hasFired_begin, Switch.hasFired_begin]
    exact h.more i
  link l hl := by
    change t.switch.begin.hasFired l.signal = s.switch.begin.hasFired l.signal
    rw [Bool.eq_iff_iff, Switch.hasFired_begin, Switch.hasFired_begin, h.link l hl]

/-- The signal of a new request has fired in neither session. -/
theorem openLink (h : Relit s t) (q : Question) : Relit (s.openLink q) (t.openLink q) := by
  have hn := (h.map (·.ask q) (fun _ _ => rfl) rfl rfl).begin
  have hx : t.transport.next.1 = s.transport.next.1 := by rw [h.same]; rfl
  unfold Session.openLink
  rw [hx]
  cases s.transport.next.1 with
  | refused reason => exact hn.fail (.ofFailure (.request reason))
  | accepted feed =>
    have hs := hn.remark .linkRequested
    refine ⟨congrArg (fun u : Session => { u with phase := .awaiting ⟨u.switch.installed, feed⟩ })
      hs.same, hs.size, hs.more, ?_⟩
    intro l hl
    cases hl
    have hf := t.switch.hasFired_begin_new
    rw [h.size] at hf
    exact hf.trans s.switch.hasFired_begin_new.symm

theorem request (h : Relit s t) (text : String) : Relit (s.request text) (t.request text) := by
  have ht : t.conversation = s.conversation := by rw [h.same]; rfl
  have hs : Relit (s.say text) (t.say text) := h.map (·.say text) (fun _ _ => rfl) rfl rfl
  have hq := hs.openLink ⟨text, (s.say text).conversation⟩
  unfold Session.request
  have hc : (t.say text).conversation = (s.say text).conversation := ht
  rw [hc]
  exact hq

theorem send (h : Relit s t) (text : String) : Relit (s.send text) (t.send text) := by
  have hs : Relit s.superseded t.superseded := by
    unfold superseded
    rw [h.phase]
    split
    · exact h
    · exact (h.remark _).abort
  rw [send_eq, send_eq]
  exact (hs.request text).publish

theorem stop (h : Relit s t) : Relit s.stop t.stop := by
  unfold Session.stop
  rw [h.phase]
  split
  · exact h
  · exact h.abort.publish

theorem clear (h : Relit s t) : Relit s.clear t.clear :=
  h.leave.map
    (fun s => ({ s.dropTools with history := [], mishap := none, conversation := none }.rest
      |>.announce .cleared).publish) (fun _ _ => rfl) rfl rfl

theorem signalStop (h : Relit s t) : Relit s.signalStop t.signalStop := by
  have hi : t.switch.installed = s.switch.installed := by rw [h.same]; rfl
  unfold Session.signalStop Switch.stop
  rw [hi]
  exact h.fire _

theorem enact (h : Relit s t) (d : Deed) : Relit (s.enact d) (t.enact d) := by
  cases d with
  | setClock now => exact h.map (·.setClock now) (fun _ _ => rfl) rfl rfl
  | send text => exact h.send text
  | step => exact h.step.2
  | stop => exact h.stop
  | clear => exact h.clear
  | signalStop => exact h.signalStop

theorem again (h : Relit s t) : t.again = s.again := by
  rw [h.same]
  rfl

/-- A stop of the second session only, which comes too late. -/
theorem late (h : Relit s t) (hl : t.phase = .idle ∨ t.switch.hasFired t.switch.installed = true) :
    Relit s t.signalStop where
  same := by
    rw [h.same]
    rfl
  size := (List.length_set).trans h.size
  more i hi := by
    change (t.switch.fire _).hasFired i = true
    rw [Switch.hasFired_fire_eq, h.more i hi, Bool.or_true]
  link l hs := by
    change (t.switch.fire t.switch.installed).hasFired l.signal = _
    rw [← h.link l hs, Switch.hasFired_fire_eq]
    rcases hl with hp | hf
    · rw [← h.phase, hp] at hs
      cases hs
    · by_cases he : t.switch.installed = l.signal
      · rw [← he, hf, Bool.or_true]
      · simp [he]

end Relit

theorem lockstep_relit : Lockstep id fun _ => Relit where
  enact d _ _ _ h := by
    have hd : d.retimed id = d := by cases d <;> rfl
    rw [hd]
    exact h.enact d
  progress _ _ _ h := h.step.1
  again _ _ _ h := h.again

theorem Relit.perform {s t : Session} (h : Relit s t) (op : Operation) :
    (t.perform op).1 = (s.perform op).1 ∧ Relit (s.perform op).2 (t.perform op).2 :=
  @Lockstep.perform _ _ lockstep_relit op [] s t h

/-! ## Late stops in a course -/

/-- The second course is the first with stops put in that come too late: no turn is under way then, or the
  signal of the turn was hit before. -/
inductive Padded (start : Session) : List (Int × Operation) → List (Int × Operation) → Prop
  | nil : Padded start [] []
  | op {ops ops' : List (Int × Operation)} (o : Int × Operation) (h : Padded start ops ops') :
    Padded start (ops ++ [o]) (ops' ++ [o])
  | idle {ops ops' : List (Int × Operation)} (now : Int) (h : Padded start ops ops')
      (hp : (start.course ops').phase = .idle) : Padded start ops (ops' ++ [(now, .signalStop)])
  | again {ops ops' : List (Int × Operation)} (now : Int) (h : Padded start ops ops')
      (hh : (start.course ops').switch.installed ∈ start.hits (start.courseDeeds ops')) :
    Padded start ops (ops' ++ [(now, .signalStop)])

theorem course_concat (s : Session) (ops : List (Int × Operation)) (o : Int × Operation) :
    s.course (ops ++ [o]) = (((s.course ops).setClock o.1).perform o.2).2 := List.foldl_concat _ _ _ _

/-- A hit is not taken back while its signal is installed. -/
theorem Owned.hasFired_of_hit {script : Transport} {hits : List Nat} {s : Session}
    (h : Owned script hits s) (hm : s.switch.installed ∈ hits) :
    s.phase = .idle ∨ s.switch.hasFired s.switch.installed = true := by
  cases hl : s.phase.link? with
  | none => exact .inl (Phase.link?_eq_none.mp hl)
  | some l =>
    obtain ⟨k, hk, hq, -⟩ := h.signal l.signal (by rw [Phase.signal?, hl]; rfl)
    rw [h.installed, hq] at hm ⊢
    exact .inr ((h.fired_iff k (by omega)).mpr (.inr hm))

theorem Padded.relit {matching : Matching} {transport : Transport} {mint : Mint}
    {ops ops' : List (Int × Operation)} (h : Padded (create matching transport mint) ops ops')
    (now : Int) :
    Relit (((create matching transport mint).course ops).setClock now)
      (((create matching transport mint).course ops').setClock now) := by
  induction h generalizing now with
  | nil => exact .refl _
  | op o _ ih =>
    rw [course_concat, course_concat]
    exact ((ih o.1).perform o.2).2.map (·.setClock now) (fun _ _ => rfl) rfl rfl
  | idle _ _ hp ih =>
    rw [course_concat]
    exact (ih now).late (.inl hp)
  | again _ _ hh ih =>
    rw [course_concat]
    exact (ih now).late ((owned_of_course matching transport mint _).hasFired_of_hit hh)

theorem getElem?_cancelled (s : Session) (k : Nat) :
    s.view.cancelled[k]? =
      if k + 1 < s.switch.fired.length then some (s.switch.hasFired (k + 1)) else none :=
  List.getElem?_tail.trans (s.switch.getElem?_fired (k + 1))

/-- The signals that tell the two sessions apart belong to requests that were refused, and were hit. -/
theorem Relit.cancelled {script : Transport} {hits hits' : List Nat} {s t : Session} (h : Relit s t)
    (hs : Owned script hits s) (ht : Owned script hits' t) {k : Nat}
    (hne : t.view.cancelled[k]? ≠ s.view.cancelled[k]?) :
    s.view.cancelled[k]? = some false ∧ t.view.cancelled[k]? = some true ∧
      (∃ reason, script.opening k = .refused reason) ∧ k + 1 ∈ hits' ∧ k + 1 ∉ hits := by
  rw [getElem?_cancelled, getElem?_cancelled, h.size] at hne ⊢
  by_cases hk : k + 1 < s.switch.fired.length
  · rw [if_pos hk, if_pos hk] at hne ⊢
    have hsf : s.switch.hasFired (k + 1) = false := by
      rw [← Bool.not_eq_true]
      intro hf
      exact hne (congrArg some ((h.more _ hf).trans hf.symm))
    have htf : t.switch.hasFired (k + 1) = true := by
      rw [← Bool.not_eq_false]
      intro hf
      exact hne (congrArg some (hf.trans hsf.symm))
    have hlt : k < s.journal.questions.length := by
      have := hs.size
      omega
    have hlt' : k < t.journal.questions.length := by
      have := ht.size
      have := h.size
      omega
    have hsn : ¬ _ := mt (hs.fired_iff k hlt).mpr (Bool.eq_false_iff.mp hsf)
    have hti := (ht.fired_iff k hlt').mp htf
    rw [h.phase] at hti
    obtain ⟨hsa, hsh⟩ := not_or.mp hsn
    have hth : k + 1 ∈ hits' := hti.resolve_left hsa
    -- The link of the turn under way has the same signal in both.
    have hphase : s.phase.signal? ≠ some (k + 1) := by
      intro hp
      obtain ⟨l, hl, hlk⟩ := Option.map_eq_some_iff.mp hp
      have := h.link l hl
      rw [hlk, hsf, htf] at this
      cases this
    refine ⟨congrArg some hsf, congrArg some htf, ?_, hth, hsh⟩
    cases ho : script.opening k with
    | refused reason => exact ⟨reason, rfl⟩
    | accepted feed => exact absurd ⟨⟨feed, ho⟩, hphase⟩ hsa
  · rw [if_neg hk, if_neg hk] at hne
    exact absurd rfl hne

/-- **A late stop cannot be seen.** Stops put into a course while no turn is under way, or after the turn was
  stopped once, change nothing that any later operation answers, and nothing that can be seen, but that the
  signal of a refused request may have fired: one that was installed when such a stop came. -/
theorem late_stop_course (matching : Matching) (transport : Transport) (mint : Mint)
    {ops ops' : List (Int × Operation)} (h : Padded (create matching transport mint) ops ops') :
    let start := create matching transport mint
    let s := start.course ops
    let t := start.course ops'
    (∀ now op, ((t.setClock now).perform op).1 = ((s.setClock now).perform op).1) ∧
    { t.view with cancelled := s.view.cancelled } = s.view ∧
    ∀ k, t.view.cancelled[k]? ≠ s.view.cancelled[k]? →
      s.view.cancelled[k]? = some false ∧ t.view.cancelled[k]? = some true ∧
      (∃ reason, transport.opening k = .refused reason) ∧
      k + 1 ∈ start.hits (start.courseDeeds ops') ∧ k + 1 ∉ start.hits (start.courseDeeds ops) := by
  intro start s t
  have hr := h.relit
  have owned (ops : List (Int × Operation)) (now : Int) :
      Owned transport (start.hits (start.courseDeeds ops)) ((start.course ops).setClock now) :=
    (owned_of_course matching transport mint ops).of_same rfl rfl rfl rfl rfl
  refine ⟨fun now op => ((hr now).perform op).1, ?_, ?_⟩
  · have hv : (t.setClock 0).view = ((s.setClock 0).relit (t.setClock 0).switch.fired).view :=
      congrArg view (hr 0).same
    change { (t.setClock 0).view with cancelled := s.view.cancelled } = s.view
    rw [hv]
    rfl
  · intro k hk
    exact (hr 0).cancelled (owned ops 0) (owned ops' 0) hk

/-- Stops before the first message, twice more while it is answered, and after a refusal, which alone
  shows. -/
theorem late_stop_course_of_refused :
    let reply : List Delivery := [.event (.start "c1"), .event (.delta "Hel"), .event .stop]
    let transport : Transport := ⟨[.accepted (.ofDeliveries reply false), .refused "busy",
      .accepted (.ofDeliveries reply false)], .accepted .closed⟩
    let start := create .oldest transport ⟨fun n => ["u1", "r1", "u2", "u3", "r3"][n]?.getD "", 0, 0⟩
    let ops := [(1700, .send "Hi"), (1700, .step 2), (1800, .signalStop), (1900, .run),
      (2000, .send "Well?"), (2100, .retry), (2100, .run)]
    let ops' := [(1600, .signalStop), (1700, .send "Hi"), (1700, .step 2), (1800, .signalStop),
      (1800, .signalStop), (1850, .signalStop), (1900, .run), (1950, .signalStop), (2000, .send "Well?"),
      (2050, .signalStop), (2100, .retry), (2100, .run)]
    (start.course ops').view.cancelled = [true, true, true] ∧
      (start.course ops).view.cancelled = [true, false, true] ∧
      { (start.course ops').view with cancelled := (start.course ops).view.cancelled }
        = (start.course ops).view := by
  intro reply transport start ops ops'
  have h : Padded start ops ops' := by
    refine .op (2100, .run) (.op (2100, .retry) (.idle 2050 (.op (2000, .send "Well?") (.idle 1950
      (.op (1900, .run) (.again 1850 (.again 1800 (.op (1800, .signalStop) (.op (1700, .step 2)
        (.op (1700, .send "Hi") (.idle 1600 .nil ?_)))) ?_) ?_)) ?_)) ?_))
    all_goals decide
  exact ⟨by decide, by decide, (late_stop_course .oldest transport _ h).2.1⟩

end Converse.Session
