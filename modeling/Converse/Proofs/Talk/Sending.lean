import Converse.Proofs.Talk.Cancellation
import Converse.Proofs.Talk.Indifference
import Converse.Proofs.Talk.Meaning
import Converse.Proofs.Talk.Publication

/-
  What a message that is sent does.

  A turn under way makes room for the next one (`Yields`), and then the message is put to the server (`Sends`).
  Two results say what makes no difference to it. `superseded_course`: the turn under way may be ended by the
  message, or be stopped before it is sent. `refused_course`: its link may be refused, or open and fail at once.
-/

namespace Converse

/-- The error of a request whose link could not be opened. -/
def Opening.mishap? : Opening → Option Mishap
  | .accepted _ => none
  | .refused reason => some (.ofFailure (.request reason))

/-- A signal that fires as soon as it is given out. -/
theorem Switch.fired_stop_begin (w : Switch) : w.begin.stop.fired = w.fired ++ [true] := by
  simp [begin, stop, fire]

namespace Session

variable {script : Transport} {hits : List Nat} {s t : Session}

/-! ## Room for the next turn -/

/-- What is told of a turn that makes room for the next; at rest there is none. -/
def parting (s : Session) : List Notice :=
  if s.phase.isIdle then [] else [.turnCancelled s.kept]

/-- From `s` to `t` the turn under way was ended, if there was one, and its reply kept if it had text. -/
structure Yields (s t : Session) : Prop where
  phase : t.phase = .idle
  conversation : t.conversation = s.conversation
  history : t.history = s.history ++ s.kept.toList
  notices : t.journal.notices = s.journal.notices ++ s.parting
  questions : t.journal.questions = s.journal.questions
  mishap : t.mishap = s.mishap
  transport : t.transport = s.transport
  mint : t.mint = s.mint
  size : t.switch.fired.length = s.switch.fired.length
  fired_iff : ∀ k, t.switch.hasFired k = true ↔
    s.phase.signal? = some k ∨ s.switch.hasFired k = true

theorem yields_of_idle (hp : s.phase = .idle) : Yields s s where
  phase := hp
  conversation := rfl
  history := by simp [kept, hp]
  notices := by simp [parting, hp, Phase.isIdle]
  questions := rfl
  mishap := rfl
  transport := rfl
  mint := rfl
  size := rfl
  fired_iff k := by simp [hp, Phase.signal?, Phase.link?]

theorem Owned.yields_abort (h : Owned script hits s) (hp : s.phase ≠ .idle) : Yields s s.abort := by
  obtain ⟨link, hl⟩ := Option.ne_none_iff_exists'.mp (mt Phase.link?_eq_none.mp hp)
  have ht : s.parting = [.turnCancelled s.kept] := if_neg (mt Phase.isIdle_iff.mp hp)
  have hs : s.leave.switch = s.switch.fire link.signal := by simp [Session.leave, hl]
  rw [abort_eq hp]
  refine ⟨rfl, rfl, rfl, ?_, rfl, rfl, rfl, rfl, length_fired_leave s, ?_⟩
  · rw [ht]
    rfl
  · intro k
    change s.leave.switch.hasFired k = true ↔ _
    rw [hs, Switch.hasFired_fire (h.signal_lt hl), signal?_of_link? hl, Option.some.injEq, eq_comm]

theorem Owned.yields_superseded (h : Owned script hits s) : Yields s s.superseded := by
  unfold superseded
  split
  · next hi => exact yields_of_idle (Phase.isIdle_iff.mp hi)
  · next hi =>
    have hr := Owned.kept.remark s .superseded h
    exact { hr.yields_abort (mt Phase.isIdle_iff.mpr hi) with }

theorem Owned.yields_stop (h : Owned script hits s) : Yields s s.stop := by
  unfold Session.stop
  split
  · next hi => exact yields_of_idle (Phase.isIdle_iff.mp hi)
  · next hi => exact { h.yields_abort (mt Phase.isIdle_iff.mpr hi) with }

theorem Yields.setClock (h : Yields s t) (now : Int) : Yields (s.setClock now) (t.setClock now) :=
  { h with mint := congrArg (fun m : Mint => { m with now := now }) h.mint }

/-- The session with other links to open, and other identities and times. -/
def supplied (s : Session) (f : Transport → Transport) (g : Mint → Mint) : Session :=
  { s with transport := f s.transport, mint := g s.mint }

/-- The end of a turn opens no link and needs no identity and no time. -/
theorem abort_supplied (s : Session) (f : Transport → Transport) (g : Mint → Mint) :
    (s.supplied f g).abort = s.abort.supplied f g := by
  obtain ⟨_, _, _, phase, _, _, _, _, _, _⟩ := s
  cases phase with
  | idle => rfl
  | awaiting link => rfl
  | streaming link draft =>
    simp only [supplied, abort]
    split <;> rfl

theorem superseded_supplied (s : Session) (f : Transport → Transport) (g : Mint → Mint) :
    (s.supplied f g).superseded = s.superseded.supplied f g := by
  have hp : (s.supplied f g).phase = s.phase := rfl
  unfold superseded
  rw [hp]
  split
  · rfl
  · exact abort_supplied (s.remark .superseded) f g

/-- A stop at any time makes room for what comes at another. -/
theorem abort_setClock (s : Session) (earlier now : Int) :
    (s.setClock earlier).abort.setClock now = (s.setClock now).abort := by
  have h (time : Int) : (s.setClock time).abort = s.abort.setClock time :=
    abort_supplied s id fun m => { m with now := time }
  rw [h, h]
  rfl

/-! ## The message put to the server -/

/-- The phase after a request whose link gets the signal if it is opened. -/
def Phase.requested (signal : Nat) : Opening → Phase
  | .accepted feed => .awaiting ⟨signal, feed⟩
  | .refused _ => .idle

/-- From `s` to `t` the text was sent, with what comes of its link. A turn under way has yielded. -/
structure Sends (s : Session) (o : Opening) (text : String) (t : Session) : Prop where
  conversation : t.conversation = s.conversation
  history : t.history = s.history ++ s.kept.toList ++ [.user s.freshId s.mint.now text]
  notices : t.journal.notices = s.journal.notices ++ s.parting ++
    .turnRequested (.user s.freshId s.mint.now text) :: (o.mishap?.map .turnFailed).toList
  questions : t.journal.questions = s.journal.questions ++ [⟨text, s.conversation⟩]
  mishap : t.mishap = o.mishap?.or s.mishap
  phase : t.phase = .requested s.switch.fired.length o
  running : t.switch.running = o.mishap?.isNone
  installed : t.switch.installed = s.switch.fired.length
  size : t.switch.fired.length = s.switch.fired.length + 1
  fired_iff : ∀ k, t.switch.hasFired k = true ↔
    s.phase.signal? = some k ∨ s.switch.hasFired k = true

/-- The session with the text asked for, before the server answers. -/
def asking (s : Session) (text : String) : Session :=
  { (s.say text).ask ⟨text, s.conversation⟩ with
    switch := s.switch.begin
    transport := s.transport.next.2 }

/-- The session while it waits for the reply over the link that was opened last. -/
def awaiting (s : Session) (feed : Feed) : Session :=
  { s.remark .linkRequested with phase := .awaiting ⟨s.switch.installed, feed⟩ }

theorem leave_of_idle (hp : s.phase = .idle) : s.leave = s := by
  obtain ⟨_, _, _, phase, _, _, _, _, _, _⟩ := s
  cases hp
  rfl

theorem Yields.sends (h : Yields s t) (text : String) :
    Sends s s.transport.next.1 text (t.request text).publish := by
  have ht : t.transport.next.1 = s.transport.next.1 := congrArg (·.next.1) h.transport
  have hm : Message.user t.freshId t.mint.now text = .user s.freshId s.mint.now text := by
    rw [freshId, h.mint]
    rfl
  have history : t.history ++ [.user t.freshId t.mint.now text] =
      s.history ++ s.kept.toList ++ [.user s.freshId s.mint.now text] := by rw [h.history, hm]
  have notices : t.journal.notices ++ [.turnRequested (.user t.freshId t.mint.now text)] =
      s.journal.notices ++ s.parting ++ [.turnRequested (.user s.freshId s.mint.now text)] := by
    rw [h.notices, hm]
  have questions : t.journal.questions ++ [⟨text, t.conversation⟩] =
      s.journal.questions ++ [⟨text, s.conversation⟩] := by rw [h.questions, h.conversation]
  have size : t.switch.begin.fired.length = s.switch.fired.length + 1 := by
    simp [Switch.begin, h.size]
  have fired_iff (k : Nat) : t.switch.begin.hasFired k = true ↔
      s.phase.signal? = some k ∨ s.switch.hasFired k = true :=
    (t.switch.hasFired_begin k).trans (h.fired_iff k)
  cases ho : s.transport.next.1 with
  | accepted feed =>
    rw [request_of_accepted text (ht.trans ho)]
    refine ⟨h.conversation, history, notices, questions, h.mishap, ?_, rfl, h.size, size, fired_iff⟩
    exact congrArg (fun n => Phase.awaiting ⟨n, feed⟩) h.size
  | refused reason =>
    have hp : (t.asking text).phase = .idle := h.phase
    rw [request_of_refused text (ht.trans ho)]
    change Sends _ _ _ ((t.asking text).fail _).publish
    rw [fail, leave_of_idle hp]
    refine ⟨h.conversation, history, ?_, questions, rfl, hp, rfl, h.size, size, fired_iff⟩
    change t.journal.notices ++ [_] ++ [_] = _
    rw [notices, List.append_assoc]
    rfl

/-- The signal of a message that is sent is not the one that belongs to no turn. -/
theorem Sends.numbered {o : Opening} {text : String} (h : Sends s o text t)
    (hs : 0 < s.switch.fired.length) : t.Numbered where
  nonempty := by
    rw [h.size]
    exact Nat.succ_pos _
  signal link hl := by
    rw [h.phase] at hl
    cases o with
    | accepted feed =>
      cases hl
      exact hs
    | refused reason => cases hl

/-! ## Stopped first, or superseded -/

theorem OffRecord.view (h : OffRecord s t) (notices : t.journal.notices = s.journal.notices)
    (questions : t.journal.questions = s.journal.questions) :
    t.view = { s.view with published := t.journal.published } := by
  rw [h]
  unfold Session.view
  rw [notices, questions]
  rfl

/-- A turn that is stopped makes room as one that is superseded does. -/
theorem offRecord_stop (hp : s.phase ≠ .idle) (earlier now : Int) :
    OffRecord (s.setClock now).superseded ((s.setClock earlier).stop.setClock now) := by
  have hs : (s.setClock now).superseded = ((s.setClock now).remark .superseded).abort :=
    if_neg (mt Phase.isIdle_iff.mp hp)
  have ht : (s.setClock earlier).stop.setClock now = (s.setClock now).abort.publish := by
    rw [stop_eq (s := s.setClock earlier) hp]
    exact congrArg publish (abort_setClock s earlier now)
  have h : OffRecord ((s.setClock now).remark .superseded).abort (s.setClock now).abort :=
    OffRecord.abort rfl
  rw [hs, ht]
  exact h.trans rfl

/-- **To send a message over a turn is to stop the turn and send it.** In any reachable session with a turn
  under way both show, tell, ask and fire the same, whether or not the next link opens; the stop publishes
  one more snapshot. Afterwards both sessions answer alike whatever is done to them. -/
theorem superseded_course (matching : Matching) (transport : Transport) (mint : Mint)
    (ops : List (Int × Operation))
    (busy : ((create matching transport mint).course ops).phase ≠ .idle)
    (earlier now : Int) (text : String) :
    let s := (create matching transport mint).course ops
    let stopped := s.course [(earlier, .stop)]
    let once := s.course [(now, .send text)]
    let twice := stopped.course [(now, .send text)]
    Sends (s.setClock now) s.transport.next.1 text once ∧
    once.journal.published = s.journal.published ++ [once.snapshot] ∧
    twice.view = { once.view with
      published := s.journal.published ++ [stopped.snapshot, once.snapshot] } ∧
    ∀ later, List.Forall₂ (fun a b => b.1 = a.1 ∧ View.Parallel once.view twice.view a.2 b.2)
      (once.transcript later) (twice.transcript later) := by
  intro s stopped once twice
  have owned := owned_of_course matching transport mint ops
  have owned_now : Owned _ _ (s.setClock now) := owned.of_same rfl rfl rfl rfl rfl
  have owned_earlier : Owned _ _ (s.setClock earlier) := owned.of_same rfl rfl rfl rfl rfl
  have stopped_eq : stopped = (s.setClock earlier).abort.publish :=
    stop_eq (s := s.setClock earlier) busy
  have idle : (stopped.setClock now).phase = .idle := by
    rw [stopped_eq]
    exact abort_phase _
  have ht : twice = ((stopped.setClock now).request text).publish := send_of_idle idle text
  have sends : Sends (s.setClock now) s.transport.next.1 text once :=
    owned_now.yields_superseded.sends text
  have sends' : Sends (s.setClock now) s.transport.next.1 text twice := by
    rw [ht]
    exact (owned_earlier.yields_stop.setClock now).sends text
  have same : OffRecord once twice := by
    rw [ht]
    exact ((offRecord_stop busy earlier now).request text).publish
  have once_published := published_send (s.setClock now) text
  have twice_published : twice.journal.published =
      s.journal.published ++ [stopped.snapshot, once.snapshot] := by
    have h : stopped.journal.published = s.journal.published ++ [stopped.snapshot] := by
      rw [stopped_eq]
      exact published_publish (abort_frame (s.setClock earlier)).2.2
    have hl : twice.journal.published = stopped.journal.published ++ [twice.snapshot] :=
      published_send (stopped.setClock now) text
    rw [hl, h, same.snapshot, List.append_assoc]
    rfl
  refine ⟨sends, once_published, ?_, same.transcript (sends.numbered owned_now.numbered.nonempty)⟩
  rw [same.view (sends'.notices.trans sends.notices.symm)
    (sends'.questions.trans sends.questions.symm), twice_published]

/-- A reply with text and a running tool, superseded by a message whose link is refused. -/
theorem superseded_course_of_refused :
    let feed := Feed.ofDeliveries [.event (.start "c1"), .event (.delta "Hel"),
      .event (.toolStart "search" [])] true
    let start := create .oldest ⟨[.accepted feed], .refused "no route"⟩
      ⟨fun n => ["u1", "r1", "t1", "u2"][n]?.getD "", 0, 0⟩
    let s := start.course [(1700, .send "Hi"), (1700, .step 3)]
    let stopped := s.course [(1800, .stop)]
    let once := s.course [(1900, .send "Again")]
    let twice := stopped.course [(1900, .send "Again")]
    s.phase ≠ .idle ∧
    twice.view = { once.view with
      published := s.journal.published ++ [stopped.snapshot, once.snapshot] } ∧
    once.history = [.user "u1" 1700 "Hi",
      ⟨"r1", .assistant, "Hel", 1700, false, some [⟨"t1", "search", [], .running, none⟩]⟩,
      .user "u2" 1900 "Again"] := by
  intro feed start s stopped once twice
  have busy : s.phase ≠ .idle := by decide
  exact ⟨busy, (superseded_course _ _ _ _ busy 1800 1900 "Again").2.2.1, by decide⟩

/-! ## Refused, or failed at once -/

/-- The session with another answer to the next request for a link. -/
def offered (s : Session) (o : Opening) : Session :=
  { s with transport := { s.transport with openings := o :: s.transport.openings.tail } }

/-- A link that fails before anything else comes over it leaves what a refused one leaves, but for its signal,
  which fires. -/
theorem run_awaiting {y refused sent : Session} {feed : Feed} {failure : Failure}
    (refused_eq : refused = (y.fail (.ofFailure failure)).publish)
    (sent_eq : sent = (y.awaiting feed).publish) (hp : y.phase = .idle)
    (hf : y.switch.hasFired y.switch.installed = false)
    (fails : feed.fetch.1 = .delivery (.closed (.failed failure))) (later : Int) :
    let failed := (sent.setClock later).run
    failed.1 = .nothing ∧ OffRecord (refused.signalStop.setClock later) failed.2 ∧
      failed.2.journal.notices = refused.journal.notices ∧
      failed.2.journal.questions = refused.journal.questions ∧
      failed.2.journal.published = sent.journal.published ++ [refused.snapshot] := by
  subst refused_eq sent_eq
  intro failed
  let link : Link := ⟨y.switch.installed, feed⟩
  let sent := (y.awaiting feed).publish.setClock later
  let before := sent.fetched link
  let after := ((before.remark .linkFailed).fail (.ofFailure failure)).publish
  have hl : sent.phase.link? = some link := rfl
  have step_eq : sent.step = (.applied, after) := by
    rw [step_of_unfired hl hf, fails]
    rfl
  have run_eq : failed = (.nothing, after) :=
    (run_of_applied step_eq).trans (run_of_idle rfl)
  -- the signal may have fired by itself while the link was asked
  have fired : before.leave.switch = y.switch.stop :=
    y.switch.fire_fired y.switch.installed feed.fetch.2.2
  let stopped := (y.fail (.ofFailure failure)).publish.signalStop.setClock later
  have fired' : stopped.switch = y.switch.stop.rest := by
    change y.leave.switch.rest.stop = _
    rw [leave_of_idle hp]
    rfl
  have same : OffRecord stopped after := by
    have h : after = { stopped with switch := before.leave.switch.rest, journal := after.journal } :=
      rfl
    rwa [fired, ← fired'] at h
  have shown : after.snapshot = (y.fail (.ofFailure failure)).publish.snapshot := same.snapshot
  rw [run_eq, ← shown]
  exact ⟨rfl, same, rfl, rfl, rfl⟩

theorem send_offered (s : Session) (o : Opening) (text : String) :
    (s.offered o).send text = ((s.superseded.offered o).request text).publish := by
  have h : (s.offered o).superseded = s.superseded.offered o :=
    superseded_supplied s (fun t => { t with openings := o :: t.openings.tail }) id
  rw [send_eq, h]

theorem send_refused (s : Session) (reason text : String) :
    (s.offered (.refused reason)).send text =
      (((s.superseded.offered (.refused reason)).asking text).fail
        (.ofFailure (.request reason))).publish :=
  (send_offered s _ text).trans (congrArg publish (request_of_refused text rfl))

theorem send_accepted (s : Session) (feed : Feed) (text : String) :
    (s.offered (.accepted feed)).send text =
      (((s.superseded.offered (.accepted feed)).asking text).awaiting feed).publish :=
  (send_offered s _ text).trans (congrArg publish (request_of_accepted text rfl))

theorem Yields.offered (h : Yields s t) (o : Opening) : Yields (s.offered o) (t.offered o) :=
  { h with transport := congrArg (fun t : Transport =>
      { t with openings := o :: t.openings.tail }) h.transport }

/-- The signal of a turn that has ended without firing it, as it is and after a stop from outside. -/
theorem cancelled_of_begin {w : Switch} (hs : s.switch = w.begin.rest) (hw : 0 < w.fired.length) :
    s.view.cancelled = w.fired.tail ++ [false] ∧
      s.signalStop.view.cancelled = w.fired.tail ++ [true] := by
  have hn : w.fired ≠ [] := List.ne_nil_of_length_pos hw
  have stopped : s.signalStop.switch.fired = w.fired ++ [true] := by
    rw [signalStop, hs]
    exact w.fired_stop_begin
  rw [Session.view, Session.view, stopped, hs]
  exact ⟨List.tail_append_of_ne_nil hn, List.tail_append_of_ne_nil hn⟩

/-- **A request that is refused is a link that fails at once.** In any reachable session both show, tell and ask
  the same after the message was sent and the turn has run: an error of the request that may be tried again,
  and a turn before it is aborted first. The link that was opened publishes one more snapshot, and its signal
  has fired. So the session goes on as the one that was refused does once that signal is fired from outside. -/
theorem refused_course (matching : Matching) (transport : Transport) (mint : Mint)
    (ops : List (Int × Operation)) (now later : Int) (text reason : String) (feed : Feed)
    (fails : feed.fetch.1 = .delivery (.closed (.failed (.request reason)))) :
    let s := (create matching transport mint).course ops
    let m := Mishap.ofFailure (.request reason)
    let refused := (s.offered (.refused reason)).course [(now, .send text)]
    let sent := (s.offered (.accepted feed)).course [(now, .send text)]
    let failed := sent.course [(later, .run)]
    (m.kind.code = "INTERNAL_ERROR" ∧ m.retryable = true ∧
      m.message = "request failed: " ++ reason) ∧
    Sends (s.setClock now) (.refused reason) text refused ∧
    refused.snapshot = .resting s.conversation
      (s.history ++ s.kept.toList ++ [.user s.freshId now text]) (some m) ∧
    refused.journal.published = s.journal.published ++ [refused.snapshot] ∧
    ((sent.setClock later).perform .run).1 = .done ∧
    failed.view = { refused.view with
      published := s.journal.published ++ [sent.snapshot, refused.snapshot]
      cancelled := failed.view.cancelled } ∧
    (∃ earlier, refused.view.cancelled = earlier ++ [false] ∧
      failed.view.cancelled = earlier ++ [true]) ∧
    ∀ ops, List.Forall₂
      (fun a b => b.1 = a.1 ∧ View.Parallel refused.signalStop.view failed.view a.2 b.2)
      (refused.signalStop.transcript ops) (failed.transcript ops) := by
  intro s m refused sent failed
  have owned : Owned _ _ (s.setClock now) :=
    (owned_of_course matching transport mint ops).of_same rfl rfl rfl rfl rfl
  let u := (s.setClock now).superseded
  let y := (u.offered (.refused reason)).asking text
  have yields : Yields (s.setClock now) u := owned.yields_superseded
  have idle : y.phase = .idle := (yields.offered (.refused reason)).phase
  have refused_eq : refused = (y.fail m).publish := send_refused (s.setClock now) reason text
  have sent_eq : sent = (y.awaiting feed).publish := send_accepted (s.setClock now) feed text
  have sends : Sends (s.setClock now) (.refused reason) text refused := by
    have h : refused = ((u.offered (.refused reason)).request text).publish :=
      send_offered (s.setClock now) (.refused reason) text
    rw [h]
    exact { (yields.offered (.refused reason)).sends text with }
  obtain ⟨ran, same, notices, questions, published⟩ :=
    run_awaiting refused_eq sent_eq idle u.switch.hasFired_begin_new fails later
  have refused_published : refused.journal.published = s.journal.published ++ [refused.snapshot] :=
    published_send ((s.offered _).setClock now) text
  have sent_published : sent.journal.published = s.journal.published ++ [sent.snapshot] :=
    published_send ((s.offered _).setClock now) text
  have failed_published : failed.journal.published =
      s.journal.published ++ [sent.snapshot, refused.snapshot] := by
    refine published.trans ?_
    rw [sent_published, List.append_assoc]
    rfl
  have view : failed.view = { refused.signalStop.view with published := failed.journal.published } :=
    same.view notices questions
  have switch_eq : refused.switch = u.switch.begin.rest := by
    rw [refused_eq, fail, leave_of_idle idle]
    rfl
  obtain ⟨unfired, fired⟩ := cancelled_of_begin switch_eq (yields.size ▸ owned.numbered.nonempty)
  have numbered := (sends.numbered owned.numbered.nonempty).signalStop
  refine ⟨⟨rfl, rfl, rfl⟩, sends, ?_, refused_published, congrArg Progress.runAnswer ran, ?_,
    ⟨u.switch.fired.tail, unfired, ?_⟩, ?_⟩
  · have h : refused.snapshot = .resting refused.conversation refused.history refused.mishap := by
      rw [refused_eq]
      rfl
    rw [h, sends.conversation, sends.history, sends.mishap]
    rfl
  · rw [view, failed_published]
    rfl
  · rw [view]
    exact fired
  · intro ops
    rw [← transcript_setClock _ later]
    exact same.transcript ⟨numbered.nonempty, numbered.signal⟩ ops

/-- A reply with text and a running tool makes room for a request that is refused, or that fails while its
  stop signal fires by itself. -/
theorem refused_course_of_tool :
    let feed : Feed := ⟨[.fire, .deliver (.closed (.failed (.request "no route")))], false⟩
    let first := Feed.ofDeliveries [.event (.start "c1"), .event (.delta "Hel"),
      .event (.toolStart "search" [])] true
    let start := create .oldest ⟨[.accepted first], .refused "busy"⟩
      ⟨fun n => ["u1", "r1", "t1", "u2"][n]?.getD "", 0, 0⟩
    let s := start.course [(1700, .send "Hi"), (1700, .step 3)]
    let refused := (s.offered (.refused "no route")).course [(1900, .send "Again")]
    let sent := (s.offered (.accepted feed)).course [(1900, .send "Again")]
    let failed := sent.course [(1950, .run)]
    feed.fetch.1 = .delivery (.closed (.failed (.request "no route"))) ∧
    refused.snapshot = .resting (some "c1") [.user "u1" 1700 "Hi",
        ⟨"r1", .assistant, "Hel", 1700, false, some [⟨"t1", "search", [], .running, none⟩]⟩,
        .user "u2" 1900 "Again"]
      (some ⟨"request failed: no route", .unexpected, true⟩) ∧
    failed.view = { refused.view with
      published := s.journal.published ++ [sent.snapshot, refused.snapshot]
      cancelled := failed.view.cancelled } ∧
    refused.view.cancelled = [true, false] ∧ failed.view.cancelled = [true, true] := by
  intro feed first start s refused sent failed
  obtain ⟨-, -, -, -, -, view, -⟩ := refused_course .oldest ⟨[.accepted first], .refused "busy"⟩
    ⟨fun n => ["u1", "r1", "t1", "u2"][n]?.getD "", 0, 0⟩
    [(1700, .send "Hi"), (1700, .step 3)] 1900 1950 "Again" "no route" feed rfl
  exact ⟨rfl, by decide, view, by decide, by decide⟩

end Session

end Converse
