import Converse.Talk.Session

/-
  The course of a session: operations in any order, each at a time of its own.

  An operation comes down to single deeds, none of which repeats anything (`course_eq_enactAll`), and a deed
  comes down to a few changes of the session. `Kept P` says that `P` survives what happens inside a turn and
  at its end, `Invariant P` that it survives the rest as well; `Invariant.course` carries such a `P` through
  every course. `step_run` says that the bound on the steps of a run never cuts one short.
-/

namespace Converse.Session

/-- The session after operations in order, each with the time at which it is done. -/
def course (s : Session) (ops : List (Int × Operation)) : Session :=
  ops.foldl (fun s op => ((s.setClock op.1).perform op.2).2) s

/-! ## Deeds -/

/-- A single thing that is done to a session, or the time that it takes. -/
inductive Deed
  | setClock (now : Int)
  | send (text : String)
  | step
  | stop
  | clear
  | signalStop
deriving DecidableEq, Repr

def enact (s : Session) : Deed → Session
  | .setClock now => s.setClock now
  | .send text => s.send text
  | .step => s.step.2
  | .stop => s.stop
  | .clear => s.clear
  | .signalStop => s.signalStop

def enactAll (s : Session) (ds : List Deed) : Session := ds.foldl enact s

/-- The deeds of a number of steps. -/
def stepDeeds : Nat → Session → List Deed
  | 0, _ => []
  | n + 1, s =>
    match s.step with
    | (.waiting, _) => [.step]
    | (_, t) => .step :: stepDeeds n t

/-- The deeds of a run of at most `fuel` steps. -/
def runDeeds : Nat → Session → List Deed
  | 0, _ => []
  | fuel + 1, s =>
    match s.step with
    | (.applied, t) => .step :: runDeeds fuel t
    | _ => [.step]

/-- What an operation comes down to in a given state. -/
def deeds (s : Session) : Operation → List Deed
  | .send text => [.send text]
  | .step count => stepDeeds count s
  | .run => runDeeds s.stepBound s
  | .submit text => .send text :: runDeeds (s.send text).stepBound (s.send text)
  | .retry =>
    match s.retry.1, s.history.lastUser with
    | true, some last => [.send last.content]
    | _, _ => []
  | .stop => [.stop]
  | .clear => [.clear]
  | .signalStop => [.signalStop]

/-- The deeds of a whole course. -/
def courseDeeds (s : Session) : List (Int × Operation) → List Deed
  | [] => []
  | (now, op) :: rest =>
    .setClock now :: ((s.setClock now).deeds op
      ++ courseDeeds ((s.setClock now).perform op).2 rest)

theorem enactAll_append (s : Session) (ds es : List Deed) :
    s.enactAll (ds ++ es) = (s.enactAll ds).enactAll es := List.foldl_append

theorem steps_eq_enactAll (n : Nat) (s : Session) : (steps n s).2 = s.enactAll (stepDeeds n s) := by
  fun_induction steps n s with
  | case1 s => rfl
  | case2 s =>
    unfold stepDeeds
    split <;> rfl
  | case3 s n _ t h => simp [stepDeeds, h, enactAll, enact]
  | case4 s n _ r t hr h ih =>
    unfold stepDeeds
    rw [h]
    cases r <;> simp_all [enactAll, enact]

theorem runFor_eq_enactAll (fuel : Nat) (s : Session) :
    (runFor fuel s).2 = s.enactAll (runDeeds fuel s) := by
  induction fuel generalizing s with
  | zero => rfl
  | succ fuel ih =>
    unfold runFor runDeeds
    split
    · next t h => rw [ih]; simp [enactAll, enact, h]
    · next h => simp [enactAll, enact]

theorem retry_eq_enactAll (s : Session) : s.retry.2 = s.enactAll (s.deeds .retry) := by
  unfold deeds retry
  split
  · next m last _ _ hl => cases hm : m.retryable <;> simp [hl, enactAll, enact]
  · rfl

theorem perform_eq_enactAll (s : Session) (op : Operation) :
    (s.perform op).2 = s.enactAll (s.deeds op) := by
  cases op with
  | step count => exact steps_eq_enactAll count s
  | run => exact runFor_eq_enactAll s.stepBound s
  | submit text => exact runFor_eq_enactAll (s.send text).stepBound (s.send text)
  | retry => exact retry_eq_enactAll s
  | _ => rfl

/-- **A course is its deeds.** Whatever is done to a session is done by single deeds, one after another. -/
theorem course_eq_enactAll (s : Session) (ops : List (Int × Operation)) :
    s.course ops = s.enactAll (s.courseDeeds ops) := by
  induction ops generalizing s with
  | nil => rfl
  | cons o ops ih =>
    obtain ⟨now, op⟩ := o
    have h := perform_eq_enactAll (s.setClock now) op
    calc s.course ((now, op) :: ops)
        = ((s.setClock now).perform op).2.course ops := rfl
      _ = ((s.setClock now).enactAll ((s.setClock now).deeds op)).enactAll
            (courseDeeds ((s.setClock now).perform op).2 ops) := by rw [ih, ← h]
      _ = s.enactAll (s.courseDeeds ((now, op) :: ops)) := (enactAll_append _ _ _).symm

theorem eq_step_of_mem_stepDeeds {n : Nat} {s : Session} {d : Deed} (h : d ∈ stepDeeds n s) :
    d = .step := by
  induction n generalizing s with
  | zero => cases h
  | succ n ih =>
    unfold stepDeeds at h
    split at h
    · exact List.mem_singleton.mp h
    · rcases List.mem_cons.mp h with h | h
      · exact h
      · exact ih h

theorem eq_step_of_mem_runDeeds {fuel : Nat} {s : Session} {d : Deed} (h : d ∈ runDeeds fuel s) :
    d = .step := by
  induction fuel generalizing s with
  | zero => cases h
  | succ fuel ih =>
    unfold runDeeds at h
    split at h
    · rcases List.mem_cons.mp h with h | h
      · exact h
      · exact ih h
    · exact List.mem_singleton.mp h

/-- All that an operation can come down to. -/
theorem mem_deeds {s : Session} {op : Operation} {d : Deed} (h : d ∈ s.deeds op) :
    d = .step ∨ (∃ text, d = .send text) ∨ (op = .stop ∧ d = .stop) ∨ (op = .clear ∧ d = .clear) ∨
      (op = .signalStop ∧ d = .signalStop) := by
  cases op with
  | step count => exact .inl (eq_step_of_mem_stepDeeds h)
  | run => exact .inl (eq_step_of_mem_runDeeds h)
  | submit text =>
    rcases List.mem_cons.mp h with h | h
    · exact .inr (.inl ⟨text, h⟩)
    · exact .inl (eq_step_of_mem_runDeeds h)
  | retry =>
    simp only [deeds] at h
    split at h
    · exact .inr (.inl ⟨_, List.mem_singleton.mp h⟩)
    · cases h
  | send text => exact .inr (.inl ⟨text, List.mem_singleton.mp h⟩)
  | stop => exact .inr (.inr (.inl ⟨rfl, List.mem_singleton.mp h⟩))
  | clear => exact .inr (.inr (.inr (.inl ⟨rfl, List.mem_singleton.mp h⟩)))
  | signalStop => exact .inr (.inr (.inr (.inr ⟨rfl, List.mem_singleton.mp h⟩)))

/-- Only a clearing clears. -/
theorem clear_not_mem_deeds (s : Session) {op : Operation} (hop : op ≠ .clear) :
    .clear ∉ s.deeds op := by
  intro h
  rcases mem_deeds h with h | ⟨_, h⟩ | ⟨-, h⟩ | ⟨h, -⟩ | ⟨-, h⟩
  · cases h
  · cases h
  · cases h
  · exact hop h
  · cases h

theorem clear_not_mem_courseDeeds (s : Session) {ops : List (Int × Operation)}
    (h : ∀ op ∈ ops, op.2 ≠ .clear) : .clear ∉ s.courseDeeds ops := by
  induction ops generalizing s with
  | nil => exact List.not_mem_nil
  | cons o ops ih =>
    obtain ⟨now, op⟩ := o
    intro hm
    rcases List.mem_cons.mp hm with hm | hm
    · cases hm
    · rcases List.mem_append.mp hm with hm | hm
      · exact clear_not_mem_deeds _ (h _ List.mem_cons_self) hm
      · exact ih _ (fun op hop => h op (List.mem_cons_of_mem _ hop)) hm

/-! ## What a step does -/

/-- The session once the link of its turn was asked for the next thing. -/
def fetched (s : Session) (link : Link) : Session :=
  { s with
    phase := s.phase.withLink { link with feed := link.feed.fetch.2.1 }
    switch := if link.feed.fetch.2.2 then s.switch.fire link.signal else s.switch }

theorem link?_fetched {s : Session} {link : Link} (hl : s.phase.link? = some link) :
    (s.fetched link).phase.link? = some { link with feed := link.feed.fetch.2.1 } :=
  Phase.link?_withLink (Phase.ne_idle_of_link? hl) _

/-- Whether the signal of the turn fires by itself while a step asks the link. -/
def firesItself (s : Session) : Bool :=
  match s.phase.link? with
  | some link => !s.switch.hasFired link.signal && link.feed.fetch.2.2
  | none => false

/-- Asking the link changes nothing that can be observed. -/
theorem snapshot_fetched (s : Session) (link : Link) : (s.fetched link).snapshot = s.snapshot := by
  cases hp : s.phase <;>
    simp [snapshot, fetched, hp, Phase.withLink, Phase.stage, Phase.buffer]

theorem apply_event (s : Session) (e : Reply.Event) : s.apply (.event e) = (s.receive e).publish := rfl

theorem apply_closed (s : Session) (ending : Ending) :
    s.apply (.closed ending) = (s.close ending).publish := rfl

theorem step_of_fired {s : Session} {link : Link} (hl : s.phase.link? = some link)
    (hf : s.switch.hasFired link.signal = true) :
    s.step = (.applied, s.apply (.closed .aborted)) := by
  simp [step, hl, hf]

/-- A step whose turn goes on asks the link. -/
theorem step_of_unfired {s : Session} {link : Link} (hl : s.phase.link? = some link)
    (hf : s.switch.hasFired link.signal = false) :
    s.step = match link.feed.fetch.1 with
      | .delivery d => (.applied, (s.fetched link).apply d)
      | .ended => (.applied, ((s.fetched link).remark .endedSilently).apply (.closed .normal))
      | .nothing =>
        if link.feed.fetch.2.2 then (.applied, (s.fetched link).apply (.closed .aborted))
        else (.waiting, s) := by
  unfold step
  rw [hl]
  dsimp only
  rw [hf]
  rfl

/-- All that a step can be, with what it found. -/
inductive Stepped (s : Session) : Progress × Session → Prop
  | idle (hp : s.phase = .idle) : Stepped s (.nothing, s)
  | stopped (link : Link) (hl : s.phase.link? = some link)
      (hf : s.switch.hasFired link.signal = true) :
      Stepped s (.applied, s.apply (.closed .aborted))
  | waits (link : Link) (hl : s.phase.link? = some link)
      (hf : s.switch.hasFired link.signal = false) (hx : link.feed.fetch.1 = .nothing)
      (hi : link.feed.fetch.2.2 = false) : Stepped s (.waiting, s)
  | interrupted (link : Link) (hl : s.phase.link? = some link)
      (hf : s.switch.hasFired link.signal = false) (hx : link.feed.fetch.1 = .nothing)
      (hi : link.feed.fetch.2.2 = true) :
      Stepped s (.applied, (s.fetched link).apply (.closed .aborted))
  | ended (link : Link) (hl : s.phase.link? = some link)
      (hf : s.switch.hasFired link.signal = false) (hx : link.feed.fetch.1 = .ended) :
      Stepped s (.applied, ((s.fetched link).remark .endedSilently).apply (.closed .normal))
  | delivered (link : Link) (d : Delivery) (hl : s.phase.link? = some link)
      (hf : s.switch.hasFired link.signal = false) (hx : link.feed.fetch.1 = .delivery d) :
      Stepped s (.applied, (s.fetched link).apply d)

theorem stepped (s : Session) : Stepped s s.step := by
  unfold step
  split
  · next hl => exact .idle (Phase.link?_eq_none.mp hl)
  · next link hl =>
    split
    · next hf => exact .stopped link hl hf
    · next hf =>
      have hf : s.switch.hasFired link.signal = false := by simpa using hf
      dsimp only
      split
      · next d hx => exact .delivered link d hl hf hx
      · next hx => exact .ended link hl hf hx
      · next hx =>
        split
        · next hi =>
          have h := Stepped.interrupted link hl hf hx hi
          simpa only [fetched, hi, if_true] using h
        · next hi => exact .waits link hl hf hx (by simpa using hi)

/-- A step that took nothing in left the session as it was. -/
theorem step_of_not_applied {s : Session} (h : s.step.1 ≠ .applied) : s.step.2 = s := by
  have hs := stepped s
  generalize s.step = r at h hs
  cases hs <;> simp_all

/-! ## What a property has to survive -/

/-- What holds through all that can happen inside a turn and at its end. -/
structure Kept (P : Session → Prop) : Prop where
  remark : ∀ s r, P s → P (s.remark r)
  publish : ∀ s, P s → P s.publish
  countDropped : ∀ s, P s → P { s with dropped := s.dropped + 1 }
  abort : ∀ s, P s → P s.abort
  fail : ∀ s m, s.phase ≠ .idle → P s → P (s.fail m)
  complete : ∀ s link draft, s.phase = .streaming link draft → P s → P (s.complete draft)
  startReply : ∀ s link conversation, s.phase = .awaiting link → P s →
    P (s.startReply link conversation)
  grow : ∀ s link draft content, s.phase = .streaming link draft → P s →
    P ({ s with phase := .streaming link (draft.append content) }.announce (.delta content))
  startTool : ∀ s link draft tool arguments, s.phase = .streaming link draft → P s →
    P (s.startTool tool arguments)
  finishTool : ∀ s link draft tool success summary, s.phase = .streaming link draft → P s →
    P (s.finishTool tool success summary)

theorem abort_phase (s : Session) : s.abort.phase = .idle := by
  unfold abort
  split
  · next hp => exact hp
  · rfl
  · split <;> rfl

/-- What the end of a turn that is not wanted any more leaves alone. -/
theorem abort_frame (s : Session) :
    s.abort.conversation = s.conversation ∧ s.abort.dropped = s.dropped ∧
      s.abort.journal.published = s.journal.published := by
  unfold abort
  split
  · exact ⟨rfl, rfl, rfl⟩
  · exact ⟨rfl, rfl, rfl⟩
  · split <;> exact ⟨rfl, rfl, rfl⟩

/-- The end of a tool changes nothing but the tools and what is let out. -/
theorem finishTool_eq (s : Session) (tool : String) (success : Bool) (summary : Option String) :
    s.finishTool tool success summary =
      { s with
        tools := ((s.tools.finish tool success summary).map Prod.snd).getD s.tools
        journal := (s.finishTool tool success summary).journal } := by
  unfold finishTool
  cases hr : s.tools.finish tool success summary with
  | some r => rfl
  | none =>
    dsimp only
    split <;> rfl

/-- What the end of a tool leaves alone, also of a tool that does not run. -/
theorem finishTool_frame (s : Session) (tool : String) (success : Bool) (summary : Option String) :
    (s.finishTool tool success summary).conversation = s.conversation ∧
      (s.finishTool tool success summary).journal.published = s.journal.published := by
  unfold finishTool
  split
  · exact ⟨rfl, rfl⟩
  · split <;> exact ⟨rfl, rfl⟩

/-- The question of a message put to the server, the session being idle. -/
def request (s : Session) (text : String) : Session :=
  (s.say text).openLink ⟨text, (s.say text).conversation⟩

/-- What holds through everything that can be done to a session. -/
structure Invariant (P : Session → Prop) : Prop extends Kept P where
  setClock : ∀ s now, P s → P (s.setClock now)
  fetched : ∀ s link, s.phase.link? = some link → P s → P (s.fetched link)
  request : ∀ s text, s.phase = .idle → P s → P (s.request text)
  clear : ∀ s, P s → P s.clear
  signalStop : ∀ s, P s → P s.signalStop

namespace Kept

variable {P : Session → Prop} (k : Kept P)

include k

theorem receive {s : Session} (e : Reply.Event) (h : P s) : P (s.receive e) := by
  cases hp : s.phase with
  | idle => simpa only [Session.receive, hp] using k.remark s .eventIgnored h
  | awaiting link =>
    have hn : s.phase ≠ .idle := by simp [hp]
    cases e with
    | start conversation =>
      simpa only [Session.receive, hp] using k.startReply s link conversation hp h
    | _ => simpa only [Session.receive, hp] using k.fail s _ hn h
  | streaming link draft =>
    have hn : s.phase ≠ .idle := by simp [hp]
    cases e with
    | delta content => simpa only [Session.receive, hp] using k.grow s link draft content hp h
    | toolStart tool arguments =>
      simpa only [Session.receive, hp] using k.startTool s link draft tool arguments hp h
    | toolEnd tool success summary =>
      simpa only [Session.receive, hp] using k.finishTool s link draft tool success summary hp h
    | stop => simpa only [Session.receive, hp] using k.complete s link draft hp h
    | start _ => simpa only [Session.receive, hp] using k.fail s _ hn h
    | error _ _ => simpa only [Session.receive, hp] using k.fail s _ hn h

theorem close {s : Session} (ending : Ending) (h : P s) : P (s.close ending) := by
  cases ending with
  | aborted => exact k.abort s h
  | normal =>
    simp only [Session.close]
    split
    · exact h
    · next hi => exact k.fail s _ (mt Phase.isIdle_iff.mpr hi) h
  | failed failure =>
    simp only [Session.close]
    split
    · exact h
    · next hi =>
      exact k.fail (s.remark .linkFailed) _ (mt Phase.isIdle_iff.mpr hi) (k.remark s _ h)

theorem apply {s : Session} (d : Delivery) (h : P s) : P (s.apply d) := by
  unfold Session.apply
  apply k.publish
  cases d with
  | opened => exact k.remark s _ h
  | dropped _ => exact k.remark _ _ (k.countDropped s h)
  | event e => exact k.receive e h
  | closed ending => exact k.close ending h

theorem stop {s : Session} (h : P s) : P s.stop := by
  unfold Session.stop
  split
  · exact h
  · exact k.publish _ (k.abort s h)

/-- A message is sent from an idle session, after what was under way has been ended. -/
theorem send {s : Session} (text : String)
    (request : ∀ t : Session, t.phase = .idle → P t → P (t.request text)) (h : P s) :
    P (s.send text) := by
  change P ((if s.phase.isIdle then s else (s.remark .superseded).abort).request text).publish
  apply k.publish
  split
  · next hi => exact request s (Phase.isIdle_iff.mp hi) h
  · exact request _ (abort_phase _) (k.abort _ (k.remark s _ h))

/-- A step asks the link first and then takes in what it got; where it does not ask, or gets nothing, the
  session is still the one before. -/
theorem step {s : Session}
    (fetched : ∀ link, s.phase.link? = some link → s.switch.hasFired link.signal = false →
      P (s.fetched link)) (h : s.firesItself = false → P s) : P s.step.2 := by
  have hs := stepped s
  generalize s.step = r at hs
  cases hs with
  | idle hp => exact h (by simp [firesItself, hp, Phase.link?])
  | stopped link hl hf => exact k.apply (.closed .aborted) (h (by simp [firesItself, hl, hf]))
  | waits link hl hf hx hi => exact h (by simp [firesItself, hl, hi])
  | interrupted link hl hf hx hi => exact k.apply (.closed .aborted) (fetched link hl hf)
  | ended link hl hf hx =>
    exact k.apply (.closed .normal) (k.remark _ .endedSilently (fetched link hl hf))
  | delivered link d hl hf hx => exact k.apply d (fetched link hl hf)

end Kept

namespace Invariant

variable {P : Session → Prop} (k : Invariant P)

include k

theorem enact {s : Session} (d : Deed) (h : P s) : P (s.enact d) := by
  cases d with
  | setClock now => exact k.setClock s now h
  | send text => exact k.toKept.send text (fun t => k.request t text) h
  | step => exact k.toKept.step (fun link hl _ => k.fetched s link hl h) (fun _ => h)
  | stop => exact k.toKept.stop h
  | clear => exact k.clear s h
  | signalStop => exact k.signalStop s h

theorem enactAll (ds : List Deed) {s : Session} (h : P s) : P (s.enactAll ds) := by
  induction ds generalizing s with
  | nil => exact h
  | cons d ds ih => exact ih (k.enact d h)

/-- **What survives every change survives every course.** -/
theorem course (ops : List (Int × Operation)) {s : Session} (h : P s) : P (s.course ops) := by
  rw [course_eq_enactAll]
  exact k.enactAll _ h

end Invariant

/-! ## A run ends by itself -/

theorem length_fetchItems {hangs : Bool} {items : List Feed.Item} {d : Delivery}
    (h : (Feed.fetchItems hangs items).1 = .delivery d) :
    (Feed.fetchItems hangs items).2.1.length < items.length := by
  induction items with
  | nil => cases hangs <;> simp [Feed.fetchItems] at h
  | cons item items ih =>
    cases item with
    | deliver _ => exact Nat.lt_succ_self _
    | fire => exact Nat.lt_succ_of_lt (ih h)

/-- A turn that goes on keeps its link. -/
theorem kept_link (link : Link) :
    Kept fun s => s.phase.link? = none ∨ s.phase.link? = some link where
  remark _ _ h := h
  publish _ h := h
  countDropped _ h := h
  abort s _ := .inl (Phase.link?_eq_none.mpr (abort_phase s))
  fail _ _ _ _ := .inl rfl
  complete _ _ _ _ _ := .inl rfl
  startReply s l c hp h := by
    have hl : some l = some link := by simpa [hp, Phase.link?] using h
    exact .inr hl
  grow s l draft content hp h := by
    have hl : some l = some link := by simpa [hp, Phase.link?] using h
    exact .inr hl
  startTool _ _ _ _ _ _ h := h
  finishTool s _ _ _ _ _ _ h := by
    unfold finishTool
    split
    · exact h
    · split <;> exact h

theorem stepBound_fetched_apply {s : Session} {link : Link} {d : Delivery}
    (hl : s.phase.link? = some link) (hx : link.feed.fetch.1 = .delivery d) :
    ((s.fetched link).apply d).stepBound < s.stepBound := by
  have hf := link?_fetched hl
  have hlt : link.feed.fetch.2.1.items.length < link.feed.items.length := length_fetchItems hx
  unfold stepBound
  rcases (kept_link _).apply d (.inr hf) with h | h
  · simp only [h, hl]
    omega
  · simp only [h, hl]
    omega

theorem stepBound_step {s t : Session} (h : s.step = (.applied, t)) : t.stepBound < s.stepBound := by
  have ends {r : Session} (hr : r.phase = .idle) {link : Link} (hl : s.phase.link? = some link) :
      r.stepBound < s.stepBound := by
    rw [stepBound, stepBound, hl, Phase.link?_eq_none.mpr hr]
    dsimp only
    omega
  have hs := stepped s
  rw [h] at hs
  cases hs with
  | stopped link hl _ => exact ends (abort_phase _) hl
  | interrupted link hl _ _ _ => exact ends (abort_phase _) hl
  | ended link hl _ _ =>
    refine ends ?_ hl
    unfold apply close
    dsimp only
    split
    · next hi => exact Phase.isIdle_iff.mp hi
    · rfl
  | delivered link d hl _ hx => exact stepBound_fetched_apply hl hx

theorem stepBound_pos (s : Session) : 0 < s.stepBound := by
  unfold stepBound
  split <;> omega

/-- Fuel beyond the bound makes no difference. -/
theorem runFor_congr {m n : Nat} {s : Session} (hm : s.stepBound ≤ m) (hn : s.stepBound ≤ n) :
    runFor m s = runFor n s := by
  induction m generalizing n s with
  | zero =>
    have := stepBound_pos s
    omega
  | succ m ih =>
    cases n with
    | zero =>
      have := stepBound_pos s
      omega
    | succ n =>
      unfold runFor
      split
      · next t ht =>
        have hlt := stepBound_step ht
        exact ih (by omega) (by omega)
      · rfl

theorem run_of_idle {s : Session} (hp : s.phase = .idle) : s.run = (.nothing, s) := by
  simp [run, stepBound, runFor, step, hp, Phase.link?]

/-- A run that takes in nothing comes to what its first step comes to. -/
theorem run_of_not_applied {s : Session} (h : s.step.1 ≠ .applied) : s.run = s.step := by
  have hpos := stepBound_pos s
  obtain ⟨n, hn⟩ : ∃ n, s.stepBound = n + 1 := ⟨s.stepBound - 1, by omega⟩
  rw [run, hn, runFor]
  split
  · next ht => exact absurd (by rw [ht]) h
  · rfl

/-- What a run takes in first can be taken in before it. -/
theorem run_of_applied {s t : Session} (h : s.step = (.applied, t)) : s.run = t.run := by
  have hlt := stepBound_step h
  obtain ⟨n, hn⟩ : ∃ n, s.stepBound = n + 1 := ⟨s.stepBound - 1, by omega⟩
  calc s.run = runFor (n + 1) s := by rw [run, hn]
    _ = runFor n t := by rw [runFor, h]
    _ = t.run := runFor_congr (by omega) (Nat.le_refl _)

theorem step_runFor {fuel : Nat} {s : Session} (h : s.stepBound ≤ fuel) :
    (runFor fuel s).2.step.1 ≠ .applied := by
  induction fuel generalizing s with
  | zero =>
    unfold stepBound at h
    split at h <;> omega
  | succ fuel ih =>
    unfold runFor
    split
    · next t ht =>
      have := stepBound_step ht
      exact ih (by omega)
    · next hne =>
      have hs : s.step.1 ≠ .applied := fun ha => hne s.step.2 (Prod.ext ha rfl)
      rw [step_of_not_applied hs]
      exact hs

/-- **A run is never cut short.** After it nothing is left to take in: the turn has ended or waits. -/
theorem step_run (s : Session) : s.run.2.step.1 ≠ .applied := step_runFor (Nat.le_refl _)

/-! ## Where links come from -/

/-- Only a request takes from the links that can be opened, and only a request asks a question. -/
theorem kept_supply (transport : Transport) (questions : List Question) :
    Kept fun s => s.transport = transport ∧ s.journal.questions = questions where
  remark _ _ h := h
  publish _ h := h
  countDropped _ h := h
  abort s h := by
    unfold abort
    split
    · exact h
    · exact h
    · split <;> exact h
  fail _ _ _ h := h
  complete _ _ _ _ h := h
  startReply _ _ _ _ h := h
  grow _ _ _ _ _ h := h
  startTool _ _ _ _ _ _ h := h
  finishTool _ _ _ _ _ _ _ h := by
    unfold finishTool
    split
    · exact h
    · split <;> exact h

/-- The session once a turn under way has made room for the next. -/
def superseded (s : Session) : Session :=
  if s.phase.isIdle then s else (s.remark .superseded).abort

theorem send_eq (s : Session) (text : String) :
    s.send text = (s.superseded.request text).publish := rfl

/-- At rest there is no turn to end first. -/
theorem send_of_idle {s : Session} (hp : s.phase = .idle) (text : String) :
    s.send text = (s.request text).publish := by
  simp only [send_eq, superseded, hp, Phase.isIdle, if_true]

theorem supply_superseded (s : Session) :
    s.superseded.transport = s.transport ∧ s.superseded.journal.questions = s.journal.questions := by
  unfold superseded
  split
  · exact ⟨rfl, rfl⟩
  · exact (kept_supply _ _).abort (s.remark .superseded) ⟨rfl, rfl⟩

theorem length_fired_leave (s : Session) :
    s.leave.switch.fired.length = s.switch.fired.length := by
  unfold leave
  dsimp only
  split
  · exact List.length_set
  · rfl

theorem length_fired_abort (s : Session) :
    s.abort.switch.fired.length = s.switch.fired.length := by
  unfold abort
  split
  · rfl
  · exact length_fired_leave s
  · split <;> exact length_fired_leave s

theorem length_fired_superseded (s : Session) :
    s.superseded.switch.fired.length = s.switch.fired.length := by
  unfold superseded
  split
  · rfl
  · exact length_fired_abort (s.remark .superseded)

/-- A message that is sent asks one question and takes one opening, and its link is the one under way if the
  opening was accepted. -/
theorem supply_send (s : Session) (text : String) :
    (s.send text).transport = s.transport.next.2 ∧
      (s.send text).journal.questions.length = s.journal.questions.length + 1 ∧
      (s.send text).phase = match s.transport.next.1 with
        | .accepted feed => .awaiting ⟨s.switch.fired.length, feed⟩
        | .refused _ => .idle := by
  obtain ⟨ht, hq⟩ := supply_superseded s
  rw [send_eq]
  unfold request openLink
  have ht' : (s.superseded.say text).transport = s.transport := ht
  rw [ht', ← hq, ← length_fired_superseded]
  cases hx : s.transport.next.1 with
  | accepted feed => exact ⟨rfl, by simp [publish, remark, ask, say, announce, spendId], rfl⟩
  | refused reason =>
    refine ⟨rfl, ?_, rfl⟩
    simp [publish, fail, announce, rest, remark, dropTools, leave, ask, say, spendId]

theorem supply_step (s : Session) :
    s.step.2.transport = s.transport ∧ s.step.2.journal.questions = s.journal.questions :=
  (kept_supply _ _).step (fun _ _ _ => ⟨rfl, rfl⟩) fun _ => ⟨rfl, rfl⟩

/-- Whether a deed leaves the links alone: it opens none and asks none. -/
def Deed.isQuiet : Deed → Bool
  | .send _ => false
  | .step => false
  | _ => true

/-- A quiet deed takes nothing from the supply, and at most it closes the link under way. -/
theorem supply_quiet {s : Session} {d : Deed} (hd : d.isQuiet = true) :
    (s.enact d).transport = s.transport ∧ (s.enact d).journal.questions = s.journal.questions ∧
      ∀ l, (s.enact d).phase.link? = some l → s.phase.link? = some l := by
  cases d with
  | send text => cases hd
  | step => cases hd
  | stop =>
    obtain ⟨ht, hq⟩ := (kept_supply s.transport s.journal.questions).stop (s := s) ⟨rfl, rfl⟩
    refine ⟨ht, hq, ?_⟩
    intro l hl
    simp only [enact, stop] at hl
    split at hl
    · exact hl
    · have hp : s.abort.publish.phase = .idle := abort_phase s
      simp [hp, Phase.link?] at hl
  | clear => exact ⟨rfl, rfl, fun l hl => by cases hl⟩
  | setClock now => exact ⟨rfl, rfl, fun _ hl => hl⟩
  | signalStop => exact ⟨rfl, rfl, fun _ hl => hl⟩

/-- A fetch that has to wait leaves the feed as it is. -/
theorem fetch_of_waiting {f : Feed} (hx : f.fetch.1 = .nothing) (hi : f.fetch.2.2 = false) :
    f.fetch.2.1 = f := by
  obtain ⟨items, hangs⟩ := f
  cases items with
  | nil => rfl
  | cons item items =>
    cases item with
    | deliver d => cases hx
    | fire => cases hi

/-- The link after a step is the link before it, with what one fetch leaves of its feed. -/
theorem link?_step {s : Session} {l' : Link} (h : s.step.2.phase.link? = some l') :
    ∃ l, s.phase.link? = some l ∧ s.switch.hasFired l.signal = false ∧
      l' = { l with feed := l.feed.fetch.2.1 } := by
  have asked {l : Link} (hl : s.phase.link? = some l) (hf : s.switch.hasFired l.signal = false)
      {u : Session} (hu : u.phase.link? = (s.fetched l).phase.link?) {d : Delivery}
      (h : (u.apply d).phase.link? = some l') :
      ∃ l, s.phase.link? = some l ∧ s.switch.hasFired l.signal = false ∧
        l' = { l with feed := l.feed.fetch.2.1 } := by
    have hp := link?_fetched hl
    rcases (kept_link { l with feed := l.feed.fetch.2.1 }).apply d (.inr (hu.trans hp)) with hn | hn
    · simp [hn] at h
    · exact ⟨l, hl, hf, Option.some.inj (h.symm.trans hn)⟩
  have hs := stepped s
  generalize s.step = r at hs h
  cases hs with
  | idle hp => simp [hp, Phase.link?] at h
  | stopped l hl hf =>
    have hp : (s.apply (.closed .aborted)).phase = .idle := abort_phase s
    simp [hp, Phase.link?] at h
  | waits l hl hf hx hi =>
    refine ⟨l, hl, hf, ?_⟩
    rw [fetch_of_waiting hx hi]
    exact Option.some.inj (h.symm.trans hl)
  | interrupted l hl hf _ _ => exact asked hl hf rfl h
  | ended l hl hf _ => exact asked (u := (s.fetched l).remark .endedSilently) hl hf rfl h
  | delivered l d hl hf _ => exact asked hl hf rfl h

end Converse.Session
