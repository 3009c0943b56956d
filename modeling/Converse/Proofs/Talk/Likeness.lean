import Converse.Proofs.Talk.Transcript

/-
  Sessions that are alike.

  Two sessions are `Alike` if they differ in identities and times only, as a renaming says, and in what the
  second one let out earlier. What their links have yet to deliver is left open. Everything that happens
  inside a turn keeps them alike, since no rule looks at an identity; a step and a new request do so where the
  links answer both in the same way (`Alike.enact`).
-/

namespace Converse

/-- Other identities and other times for the same things. -/
structure Renaming where
  id : String → String
  time : Int → Int

namespace Renaming

variable (w : Renaming)

def run (t : ToolRun) : ToolRun := { t with id := w.id t.id }

def message (m : Message) : Message :=
  { m with id := w.id m.id, timestamp := w.time m.timestamp, tools := m.tools.map (List.map w.run) }

def notice : Notice → Notice
  | .turnRequested m => .turnRequested (w.message m)
  | .turnStarted conversation => .turnStarted conversation
  | .delta content => .delta content
  | .toolStarted t => .toolStarted (w.run t)
  | .toolFinished t => .toolFinished (w.run t)
  | .turnFinalized m => .turnFinalized (w.message m)
  | .turnFailed e => .turnFailed e
  | .turnCancelled m => .turnCancelled (m.map w.message)
  | .cleared => .cleared

def snapshot (p : Snapshot) : Snapshot :=
  { p with messages := p.messages.map w.message, tools := p.tools.map w.run }

theorem message_finish (draft : Message) (runs : List ToolRun) :
    w.message (draft.finish runs) = (w.message draft).finish (runs.map w.run) := by
  cases runs <;> rfl

end Renaming

/-- The later view goes on from the earlier one as the other view does from nothing. -/
structure View.Continues (w : Renaming) (earlier v later : View) : Prop where
  snapshot : later.snapshot = w.snapshot v.snapshot
  notices : later.notices = earlier.notices ++ v.notices.map w.notice
  questions : later.questions = earlier.questions ++ v.questions
  published : later.published = earlier.published ++ v.published.map w.snapshot
  running : later.running = v.running
  dropped : later.dropped = earlier.dropped + v.dropped
  cancelled : later.cancelled.drop earlier.cancelled.length = v.cancelled

/-! ## Tools -/

theorem ToolRun.finishFirst_map (w : Renaming) (tool : String) (success : Bool)
    (summary : Option String) (runs : List ToolRun) :
    finishFirst tool success summary (runs.map w.run) =
      (finishFirst tool success summary runs).map fun r => (w.run r.1, r.2.map w.run) := by
  induction runs with
  | nil => rfl
  | cons t runs ih =>
    have ht : (w.run t).isRunningAs tool = t.isRunningAs tool := rfl
    rw [List.map_cons, finishFirst, finishFirst, ht, ih]
    cases t.isRunningAs tool with
    | true => rfl
    | false => cases finishFirst tool success summary runs <;> rfl

theorem Toolbox.finish_rename {w : Renaming} {b c : Toolbox} (hm : c.matching = b.matching)
    (hr : c.runs = b.runs.map w.run) (tool : String) (success : Bool) (summary : Option String) :
    c.isAmbiguous tool = b.isAmbiguous tool ∧ c.finish tool success summary =
      (b.finish tool success summary).map fun r =>
        (w.run r.1, { c with runs := r.2.runs.map w.run }) := by
  have ha : c.isAmbiguous tool = b.isAmbiguous tool := by
    unfold isAmbiguous
    rw [hm, hr, List.filter_map, List.length_map]
    rfl
  refine ⟨ha, ?_⟩
  unfold finish
  rw [ha, hr, ToolRun.finishFirst_map]
  cases b.isAmbiguous tool with
  | true => rfl
  | false => cases ToolRun.finishFirst tool success summary b.runs <;> rfl

/-! ## The relation -/

def Opening.refusal? : Opening → Option String
  | .refused reason => some reason
  | .accepted _ => none

theorem Switch.hasFired_fire_eq (s : Switch) (i k : Nat) :
    (s.fire i).hasFired k = ((decide (i = k) && decide (i < s.fired.length)) || s.hasFired k) := by
  unfold hasFired fire
  rw [List.getElem?_set]
  by_cases h : i = k
  · subst h
    by_cases hi : i < s.fired.length
    · simp [hi]
    · simp [hi]
  · simp [h]

theorem Switch.getElem?_fired (s : Switch) (k : Nat) :
    s.fired[k]? = if k < s.fired.length then some (s.hasFired k) else none := by
  unfold hasFired
  split
  · next h => simp [List.getElem?_eq_getElem h]
  · next h => exact List.getElem?_eq_none (Nat.le_of_not_lt h)

namespace Session

/-- Phases that are alike; the signals of the second have higher numbers. -/
inductive Phase.Alike (w : Renaming) (shift : Nat) : Phase → Phase → Prop
  | idle : Alike w shift .idle .idle
  | awaiting {l l' : Link} (h0 : 0 < l.signal) (hl : l'.signal = shift + l.signal) :
    Alike w shift (.awaiting l) (.awaiting l')
  | streaming {l l' : Link} (draft : Message) (h0 : 0 < l.signal)
    (hl : l'.signal = shift + l.signal) :
    Alike w shift (.streaming l draft) (.streaming l' (w.message draft))

structure Alike (w : Renaming) (earlier : View) (s t : Session) : Prop where
  conversation : t.conversation = s.conversation
  history : t.history = s.history.map w.message
  matching : t.tools.matching = s.tools.matching
  runs : t.tools.runs = s.tools.runs.map w.run
  phase : Phase.Alike w earlier.cancelled.length s.phase t.phase
  mishap : t.mishap = s.mishap
  dropped : t.dropped = earlier.dropped + s.dropped
  installed : t.switch.installed = earlier.cancelled.length + s.switch.installed
  size : t.switch.fired.length = earlier.cancelled.length + s.switch.fired.length
  nonempty : 0 < s.switch.fired.length
  /-- Signal 0 belongs to no request, so nothing is said of it. -/
  fired : ∀ i, 0 < i → t.switch.hasFired (earlier.cancelled.length + i) = s.switch.hasFired i
  running : t.switch.running = s.switch.running
  label : ∀ i, t.mint.label (t.mint.made + i) = w.id (s.mint.label (s.mint.made + i))
  now : t.mint.now = w.time s.mint.now
  notices : t.journal.notices = earlier.notices ++ s.journal.notices.map w.notice
  questions : t.journal.questions = earlier.questions ++ s.journal.questions
  published : t.journal.published = earlier.published ++ s.journal.published.map w.snapshot

/-- Whether the links answer a deed in the same way in both sessions. -/
def Answered (s t : Session) : Deed → Prop
  | .send _ => t.transport.next.1.refusal? = s.transport.next.1.refusal?
  | .step => ∀ l l', s.phase.link? = some l → t.phase.link? = some l' →
    s.switch.hasFired l.signal = false →
    l'.feed.fetch.1 = l.feed.fetch.1 ∧ l'.feed.fetch.2.2 = l.feed.fetch.2.2
  | _ => True

namespace Alike

variable {w : Renaming} {earlier : View} {s t : Session}

theorem stage (h : Alike w earlier s t) : t.phase.stage = s.phase.stage := by
  have hp := h.phase
  generalize s.phase = p, t.phase = q at hp
  cases hp <;> rfl

theorem buffer (h : Alike w earlier s t) : t.phase.buffer = s.phase.buffer := by
  have hp := h.phase
  generalize s.phase = p, t.phase = q at hp
  cases hp <;> rfl

theorem isIdle (h : Alike w earlier s t) : t.phase.isIdle = s.phase.isIdle := by
  have hp := h.phase
  generalize s.phase = p, t.phase = q at hp
  cases hp <;> rfl

theorem snapshot (h : Alike w earlier s t) : t.snapshot = w.snapshot s.snapshot := by
  unfold Session.snapshot Renaming.snapshot
  rw [h.conversation, h.history, h.stage, h.buffer, h.runs, h.mishap]

theorem freshId (h : Alike w earlier s t) : t.freshId = w.id s.freshId := h.label 0

/-! ### The changes that all others are made of -/

theorem remark (h : Alike w earlier s t) (r r' : Remark) :
    Alike w earlier (s.remark r) (t.remark r') := { h with }

theorem announce (h : Alike w earlier s t) {n n' : Notice} (hn : n' = w.notice n) :
    Alike w earlier (s.announce n) (t.announce n') :=
  { h with
    notices := by
      change t.journal.notices ++ [n'] = _ ++ (s.journal.notices ++ [n]).map w.notice
      rw [h.notices, hn, List.map_append, List.append_assoc]
      rfl }

theorem publish (h : Alike w earlier s t) : Alike w earlier s.publish t.publish :=
  { h with
    published := by
      change t.journal.published ++ [t.snapshot] =
        _ ++ (s.journal.published ++ [s.snapshot]).map w.snapshot
      rw [h.published, h.snapshot, List.map_append, List.append_assoc]
      rfl }

theorem ask (h : Alike w earlier s t) (q : Question) : Alike w earlier (s.ask q) (t.ask q) :=
  { h with
    questions := by
      change t.journal.questions ++ [q] = _ ++ (s.journal.questions ++ [q])
      rw [h.questions, List.append_assoc] }

theorem spendId (h : Alike w earlier s t) : Alike w earlier s.spendId t.spendId :=
  { h with
    label := by
      intro i
      have hl := h.label (1 + i)
      rw [← Nat.add_assoc, ← Nat.add_assoc] at hl
      exact hl }

theorem setClock (h : Alike w earlier s t) (now : Int) :
    Alike w earlier (s.setClock now) (t.setClock (w.time now)) :=
  { h with now := rfl }

theorem countDropped (h : Alike w earlier s t) :
    Alike w earlier { s with dropped := s.dropped + 1 } { t with dropped := t.dropped + 1 } :=
  { h with
    dropped := by
      change t.dropped + 1 = _
      rw [h.dropped, Nat.add_assoc] }

theorem fire (h : Alike w earlier s t) {i j : Nat} (hj : j = earlier.cancelled.length + i) :
    Alike w earlier { s with switch := s.switch.fire i } { t with switch := t.switch.fire j } :=
  { h with
    size := by
      change (t.switch.fired.set j true).length = _ + (s.switch.fired.set i true).length
      rw [List.length_set, List.length_set]
      exact h.size
    nonempty := by
      change 0 < (s.switch.fired.set i true).length
      rw [List.length_set]
      exact h.nonempty
    fired := by
      intro k hk
      change (t.switch.fire j).hasFired _ = (s.switch.fire i).hasFired k
      rw [Switch.hasFired_fire_eq, Switch.hasFired_fire_eq, h.fired k hk, h.size, hj]
      simp }

theorem leave (h : Alike w earlier s t) : Alike w earlier s.leave t.leave := by
  have hp := h.phase
  unfold Session.leave
  generalize s.phase = p, t.phase = q at hp
  cases hp with
  | idle => exact { h with phase := .idle }
  | awaiting _ hl => exact { h.fire hl with phase := .idle }
  | streaming _ _ hl => exact { h.fire hl with phase := .idle }

theorem rest (h : Alike w earlier s t) : Alike w earlier s.rest t.rest := { h with running := rfl }

theorem dropTools (h : Alike w earlier s t) : Alike w earlier s.dropTools t.dropTools :=
  { h with runs := rfl }

theorem keep (h : Alike w earlier s t) (draft : Message) :
    Alike w earlier (s.keep draft) (t.keep (w.message draft)) :=
  { h with
    history := by
      change t.history ++ [(w.message draft).finish t.tools.runs] =
        (s.history ++ [draft.finish s.tools.runs]).map w.message
      rw [h.history, h.runs, List.map_append, ← w.message_finish]
      rfl
    runs := rfl }

/-! ### What happens in a turn and at its end -/

theorem fail (h : Alike w earlier s t) (m : Mishap) : Alike w earlier (s.fail m) (t.fail m) := by
  have h := h.leave.dropTools.remark .turnFailed .turnFailed
  exact (show Alike w earlier { s.leave.dropTools.remark .turnFailed with mishap := some m }
    { t.leave.dropTools.remark .turnFailed with mishap := some m } from
    { h with mishap := rfl }).rest.announce rfl

theorem complete (h : Alike w earlier s t) (draft : Message) :
    Alike w earlier (s.complete draft) (t.complete (w.message draft)) := by
  refine ((h.leave.keep draft).remark _ _).rest.announce ?_
  rw [h.runs, ← w.message_finish]
  rfl

theorem abort (h : Alike w earlier s t) : Alike w earlier s.abort t.abort := by
  have hp := h.phase
  unfold Session.abort
  generalize s.phase = p, t.phase = q at hp
  cases hp with
  | idle => exact h
  | awaiting _ _ => exact (h.leave.dropTools.remark _ _).rest.announce rfl
  | streaming draft _ _ =>
    have he : (w.message draft).content = draft.content := rfl
    dsimp only
    rw [he]
    split
    · exact (h.leave.dropTools.remark _ _).rest.announce rfl
    · refine ((h.leave.keep draft).remark _ _).rest.announce ?_
      rw [h.runs, ← w.message_finish]
      rfl

theorem startReply (h : Alike w earlier s t) {l l' : Link} (h0 : 0 < l.signal)
    (hl : l'.signal = earlier.cancelled.length + l.signal) (conversation : String) :
    Alike w earlier (s.startReply l conversation) (t.startReply l' conversation) := by
  have hd : Message.reply t.freshId t.mint.now = w.message (.reply s.freshId s.mint.now) := by
    rw [h.freshId, h.now]
    rfl
  have hs := (h.remark .turnStarted .turnStarted).spendId.dropTools
  unfold Session.startReply
  rw [hd]
  exact (show Alike w earlier
    { (((s.remark .turnStarted).spendId).dropTools) with
      conversation := some conversation
      mishap := none
      phase := .streaming l (.reply s.freshId s.mint.now) }
    { (((t.remark .turnStarted).spendId).dropTools) with
      conversation := some conversation
      mishap := none
      phase := .streaming l' (w.message (.reply s.freshId s.mint.now)) } from
    { hs with
      conversation := rfl
      mishap := rfl
      phase := .streaming _ h0 hl }).announce rfl

theorem grow (h : Alike w earlier s t) {l l' : Link} (h0 : 0 < l.signal)
    (hl : l'.signal = earlier.cancelled.length + l.signal) (draft : Message) (content : String) :
    Alike w earlier
      ({ s with phase := .streaming l (draft.append content) }.announce (.delta content))
      ({ t with phase := .streaming l' ((w.message draft).append content) }.announce
        (.delta content)) :=
  (show Alike w earlier { s with phase := .streaming l (draft.append content) }
    { t with phase := .streaming l' (w.message (draft.append content)) } from
    { h with phase := .streaming _ h0 hl }).announce rfl

theorem startTool (h : Alike w earlier s t) (tool : String) (arguments : Json.Members) :
    Alike w earlier (s.startTool tool arguments) (t.startTool tool arguments) := by
  have hr : ToolRun.start t.freshId tool arguments = w.run (.start s.freshId tool arguments) := by
    rw [h.freshId]
    rfl
  have hs : Alike w earlier
      { s.spendId with tools := (s.tools.start s.freshId tool arguments).2 }
      { t.spendId with tools := (t.tools.start t.freshId tool arguments).2 } :=
    { h.spendId with
      runs := by
        change t.tools.runs ++ [ToolRun.start t.freshId tool arguments] =
          (s.tools.runs ++ [ToolRun.start s.freshId tool arguments]).map w.run
        rw [h.runs, hr, List.map_append]
        rfl }
  exact (hs.remark _ _).announce (congrArg Notice.toolStarted hr)

theorem finishTool (h : Alike w earlier s t) (tool : String) (success : Bool)
    (summary : Option String) :
    Alike w earlier (s.finishTool tool success summary) (t.finishTool tool success summary) := by
  obtain ⟨ha, hf⟩ := Toolbox.finish_rename h.matching h.runs tool success summary
  unfold Session.finishTool
  rw [hf, ha]
  cases hr : s.tools.finish tool success summary with
  | none =>
    dsimp only [Option.map_none]
    split
    · exact (h.remark _ _).remark _ _
    · exact h.remark _ _
  | some r =>
    have hs : Alike w earlier { s with tools := r.2 }
        { t with tools := { t.tools with runs := r.2.runs.map w.run } } :=
      { h with
        matching := by
          obtain ⟨_, _, _, _, _, rfl⟩ := Toolbox.finish_eq_some hr
          exact h.matching
        runs := rfl }
    exact (hs.remark _ _).announce rfl

theorem receive (h : Alike w earlier s t) (e : Reply.Event) :
    Alike w earlier (s.receive e) (t.receive e) := by
  have hp := h.phase
  unfold Session.receive
  generalize s.phase = p, t.phase = q at hp
  cases hp with
  | idle => exact h.remark _ _
  | awaiting h0 hl =>
    cases e with
    | start conversation => exact h.startReply h0 hl conversation
    | _ => exact h.fail _
  | streaming draft h0 hl =>
    cases e with
    | delta content => exact h.grow h0 hl draft content
    | toolStart tool arguments => exact h.startTool tool arguments
    | toolEnd tool success summary => exact h.finishTool tool success summary
    | stop => exact h.complete draft
    | start _ => exact h.fail _
    | error _ _ => exact h.fail _

theorem close (h : Alike w earlier s t) (ending : Ending) :
    Alike w earlier (s.close ending) (t.close ending) := by
  cases ending with
  | aborted => exact h.abort
  | normal =>
    simp only [Session.close, h.isIdle]
    split
    · exact h
    · exact h.fail _
  | failed failure =>
    simp only [Session.close, h.isIdle]
    split
    · exact h
    · exact (h.remark _ _).fail _

theorem apply (h : Alike w earlier s t) (d : Delivery) :
    Alike w earlier (s.apply d) (t.apply d) := by
  unfold Session.apply
  apply publish
  cases d with
  | opened => exact h.remark _ _
  | dropped _ => exact h.countDropped.remark _ _
  | event e => exact h.receive e
  | closed ending => exact h.close ending

/-! ### Deeds -/

theorem stop (h : Alike w earlier s t) : Alike w earlier s.stop t.stop := by
  unfold Session.stop
  rw [h.isIdle]
  split
  · exact h
  · exact h.abort.publish

theorem clear (h : Alike w earlier s t) : Alike w earlier s.clear t.clear := by
  have hs := h.leave.dropTools
  exact ((show Alike w earlier
    { s.leave.dropTools with history := [], mishap := none, conversation := none }
    { t.leave.dropTools with history := [], mishap := none, conversation := none } from
    { hs with
      conversation := rfl
      history := rfl
      mishap := rfl }).rest.announce rfl).publish

theorem signalStop (h : Alike w earlier s t) : Alike w earlier s.signalStop t.signalStop :=
  h.fire h.installed

theorem link (h : Alike w earlier s t) {l : Link} (hl : s.phase.link? = some l) :
    ∃ l', t.phase.link? = some l' ∧ 0 < l.signal ∧
      l'.signal = earlier.cancelled.length + l.signal := by
  have hp := h.phase
  generalize s.phase = p, t.phase = q at hp hl
  cases hp with
  | idle => simp [Phase.link?] at hl
  | awaiting h0 hs =>
    cases hl
    exact ⟨_, rfl, h0, hs⟩
  | streaming _ h0 hs =>
    cases hl
    exact ⟨_, rfl, h0, hs⟩

theorem fetched (h : Alike w earlier s t) {l l' : Link} (h0 : 0 < l.signal)
    (hl : l'.signal = earlier.cancelled.length + l.signal)
    (hx : l'.feed.fetch.2.2 = l.feed.fetch.2.2) :
    Alike w earlier (s.fetched l) (t.fetched l') := by
  have hp : Phase.Alike w earlier.cancelled.length
      (s.phase.withLink { l with feed := l.feed.fetch.2.1 })
      (t.phase.withLink { l' with feed := l'.feed.fetch.2.1 }) := by
    have hp := h.phase
    generalize s.phase = p, t.phase = q at hp
    cases hp with
    | idle => exact .idle
    | awaiting _ _ => exact .awaiting h0 hl
    | streaming draft _ _ => exact .streaming draft h0 hl
  unfold Session.fetched
  rw [hx]
  split
  · exact { h.fire hl with phase := hp }
  · exact { h with phase := hp }

theorem step (h : Alike w earlier s t) (ha : Answered s t .step) :
    t.step.1 = s.step.1 ∧ Alike w earlier s.step.2 t.step.2 := by
  cases hl : s.phase.link? with
  | none =>
    have hs : s.step = (.nothing, s) := by simp [Session.step, hl]
    have ht : t.step = (.nothing, t) := by
      have hi := h.isIdle
      rw [Phase.isIdle_iff.mpr (Phase.link?_eq_none.mp hl)] at hi
      simp [Session.step, Phase.link?_eq_none.mpr (Phase.isIdle_iff.mp hi)]
    rw [hs, ht]
    exact ⟨rfl, h⟩
  | some l =>
    obtain ⟨l', hl', h0, hsig⟩ := h.link hl
    have hf : t.switch.hasFired l'.signal = s.switch.hasFired l.signal := by
      rw [hsig, h.fired _ h0]
    cases hs : s.switch.hasFired l.signal with
    | true =>
      rw [step_of_fired hl hs, step_of_fired hl' (hf.trans hs)]
      exact ⟨rfl, h.apply (.closed .aborted)⟩
    | false =>
      obtain ⟨hx, hi⟩ := ha l l' hl hl' hs
      have hr := h.fetched h0 hsig hi
      rw [step_of_unfired hl hs, step_of_unfired hl' (hf.trans hs), hx, hi]
      cases l.feed.fetch.1 with
      | delivery d => exact ⟨rfl, hr.apply d⟩
      | ended => exact ⟨rfl, (hr.remark .endedSilently .endedSilently).apply (.closed .normal)⟩
      | nothing =>
        dsimp only
        split
        · exact ⟨rfl, hr.apply (.closed .aborted)⟩
        · exact ⟨rfl, h⟩

theorem say (h : Alike w earlier s t) (text : String) :
    Alike w earlier (s.say text) (t.say text) := by
  have hm : Message.user t.freshId t.mint.now text =
      w.message (.user s.freshId s.mint.now text) := by
    rw [h.freshId, h.now]
    rfl
  have hs : Alike w earlier
      { s.spendId with history := s.history ++ [.user s.freshId s.mint.now text] }
      { t.spendId with history := t.history ++ [.user t.freshId t.mint.now text] } :=
    { h.spendId with
      history := by
        change t.history ++ [_] = (s.history ++ [_]).map w.message
        rw [h.history, hm, List.map_append]
        rfl }
  exact hs.announce (congrArg Notice.turnRequested hm)

/-- A request gets a signal of its own in both sessions. -/
theorem begin (h : Alike w earlier s t) :
    Alike w earlier { s with switch := s.switch.begin, transport := s.transport.next.2 }
      { t with switch := t.switch.begin, transport := t.transport.next.2 } :=
  { h with
    installed := h.size
    size := by
      change (t.switch.fired ++ [false]).length = _ + (s.switch.fired ++ [false]).length
      rw [List.length_append, List.length_append, h.size, Nat.add_assoc]
    nonempty := by
      change 0 < (s.switch.fired ++ [false]).length
      simp
    fired := by
      intro i hi
      rw [Bool.eq_iff_iff, Switch.hasFired_begin, Switch.hasFired_begin, h.fired i hi]
    running := rfl }

theorem request (h : Alike w earlier s t) (text : String)
    (ho : t.transport.next.1.refusal? = s.transport.next.1.refusal?) :
    Alike w earlier (s.request text) (t.request text) := by
  have hs := h.say text
  have hc : (t.say text).conversation = (s.say text).conversation := hs.conversation
  have hn := (hs.ask ⟨text, (s.say text).conversation⟩).begin
  have ho' : (t.say text).transport.next.1.refusal? = (s.say text).transport.next.1.refusal? := ho
  unfold Session.request openLink
  rw [hc]
  cases hx : (s.say text).transport.next.1 with
  | accepted feed =>
    cases hy : (t.say text).transport.next.1 with
    | refused reason => simp [hx, hy, Opening.refusal?] at ho'
    | accepted feed' =>
      exact { hn.remark .linkRequested .linkRequested with
        phase := .awaiting h.nonempty h.size }
  | refused reason =>
    cases hy : (t.say text).transport.next.1 with
    | accepted feed' => simp [hx, hy, Opening.refusal?] at ho'
    | refused reason' =>
      have he : reason' = reason := by simpa [hx, hy, Opening.refusal?] using ho'
      rw [he]
      exact hn.fail _

theorem superseded (h : Alike w earlier s t) : Alike w earlier s.superseded t.superseded := by
  unfold Session.superseded
  rw [h.isIdle]
  split
  · exact h
  · exact (h.remark _ _).abort

theorem send (h : Alike w earlier s t) (text : String)
    (ho : t.transport.next.1.refusal? = s.transport.next.1.refusal?) :
    Alike w earlier (s.send text) (t.send text) := by
  rw [send_eq, send_eq]
  refine (h.superseded.request text ?_).publish
  rw [(supply_superseded s).1, (supply_superseded t).1]
  exact ho

/-- **Sessions that are alike stay so** by every deed that is answered in the same way. -/
theorem enact (h : Alike w earlier s t) (d : Deed) (ha : Answered s t d) :
    Alike w earlier (s.enact d) (t.enact (d.retimed w.time)) := by
  cases d with
  | setClock now => exact h.setClock now
  | send text => exact h.send text ha
  | step => exact (h.step ha).2
  | stop => exact h.stop
  | clear => exact h.clear
  | signalStop => exact h.signalStop

theorem lastUser (h : Alike w earlier s t) :
    t.history.lastUser = s.history.lastUser.map w.message := by
  unfold History.lastUser
  rw [h.history, ← List.map_reverse, List.find?_map]
  rfl

theorem again (h : Alike w earlier s t) : t.again = s.again := by
  have hp := h.phase
  unfold Session.again
  rw [h.mishap, h.lastUser]
  generalize s.phase = p, t.phase = q at hp
  cases hp with
  | idle => cases s.mishap <;> cases s.history.lastUser <;> rfl
  | _ => rfl

theorem view (h : Alike w earlier s t) : View.Continues w earlier s.view t.view where
  snapshot := h.snapshot
  notices := h.notices
  questions := h.questions
  published := h.published
  running := h.running
  dropped := h.dropped
  cancelled := by
    change t.switch.fired.tail.drop _ = s.switch.fired.tail
    apply List.ext_getElem?
    intro i
    have hf := h.fired (i + 1) (Nat.succ_pos i)
    rw [List.getElem?_drop, List.getElem?_tail, List.getElem?_tail, Switch.getElem?_fired,
      Switch.getElem?_fired, h.size, Nat.add_assoc, hf]
    simp

end Alike

end Session

end Converse
