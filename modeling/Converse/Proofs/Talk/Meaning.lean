import Converse.Proofs.Talk.Course

/-
  What a whole turn means.

  `meaning` says it without any step: what was heard is cut into the start, the pieces after it and the
  delivery that ends them, and each ending leaves a message, an error or neither. `submit_eq_meaning` says
  that a session which submits a message ends up there, whatever its link delivers.
-/

namespace Converse

namespace Delivery

/-- Deliveries that no turn reacts to. -/
def isNoise : Delivery → Bool
  | .opened | .dropped _ => true
  | _ => false

/-- The parts of a reply between its start and its end. -/
def isPiece : Delivery → Bool
  | .event (.delta _) | .event (.toolStart _ _) | .event (.toolEnd _ _ _) => true
  | _ => false

def text : Delivery → String
  | .event (.delta content) => content
  | _ => ""

/-- What was heard, without the noise. -/
def heard (ds : List Delivery) : List Delivery := ds.filter fun d => !d.isNoise

theorem heard_cons {d : Delivery} (hd : d.isNoise = false) (ds : List Delivery) :
    heard (d :: ds) = d :: heard ds := by
  simp [heard, hd]

theorem heard_noise {d : Delivery} (hd : d.isNoise = true) (ds : List Delivery) :
    heard (d :: ds) = heard ds := by
  simp [heard, hd]

/-- The first of what is left; a link that has nothing left is closed. -/
def first (ds : List Delivery) : Delivery := ds.headD (.closed .normal)

end Delivery

/-- The tools of a turn after pieces of its reply; those that start get identities in order. -/
def Toolbox.through (label : Nat → String) : Nat → Toolbox → List Delivery → Toolbox
  | _, b, [] => b
  | n, b, .event (.toolStart tool arguments) :: ds =>
    through label (n + 1) (b.start (label n) tool arguments).2 ds
  | n, b, .event (.toolEnd tool success summary) :: ds =>
    through label n (((b.finish tool success summary).map Prod.snd).getD b) ds
  | n, b, _ :: ds => through label n b ds

/-- The error of a server that broke the order of events; another attempt may succeed. -/
def Mishap.violation (message : String) : Mishap := ⟨message, .unexpected, true⟩

/-- The draft finished after pieces of its reply: their text appended, their tools attached. -/
def Message.through (draft : Message) (label : Nat → String) (n : Nat) (b : Toolbox)
    (ds : List Delivery) : Message :=
  { draft with content := draft.content ++ String.join (ds.map Delivery.text) }.finish
    (b.through label n ds).runs

/-- The error left by a turn whose first delivery is not the start of a reply. -/
def Mishap.unstarted (earlier : Option Mishap) : Delivery → Option Mishap
  | .event (.error message kind) => some (.reported message kind)
  | .event e => some (.violation ("received " ++ Json.inTicks e.name ++ " before `start`"))
  | .closed (.failed failure) => some (.ofFailure failure)
  | .closed .normal => some (.violation "stream closed before the reply completed")
  | .closed .aborted | .opened | .dropped _ => earlier

/-- The message and the error left by a turn whose reply had started and ended like this. -/
def Message.ended (reply : Message) : Delivery → Option Message × Option Mishap
  | .event .stop => (some reply, none)
  | .event (.error message kind) => (none, some (.reported message kind))
  | .event (.start _) => (none, some (.violation "received a second `start` within one turn"))
  | .closed .normal => (none, some (.violation "stream closed before the reply completed"))
  | .closed (.failed failure) => (none, some (.ofFailure failure))
  | .closed .aborted => (if reply.content.isEmpty then none else some reply, none)
  | _ => (none, none)

/-- A conversation between two turns. -/
def Snapshot.resting (conversation : Option String) (messages : History) (mishap : Option Mishap) :
    Snapshot := ⟨conversation, messages, false, "", [], mishap, .idle⟩

namespace Session

/-- What a session shows after a turn whose reply has come as far as the draft, by what is heard next. -/
def ending (s : Session) (draft : Message) (ds : List Delivery) : Snapshot :=
  let pieces := ds.takeWhile Delivery.isPiece
  let reply := draft.through s.mint.label s.mint.made s.tools pieces
  let left := reply.ended (Delivery.first (ds.dropWhile Delivery.isPiece))
  .resting s.conversation (s.history ++ left.1.toList) left.2

/-- What a session shows after a turn whose reply has not started, by what is heard next. -/
def reception (s : Session) : List Delivery → Snapshot
  | .event (.start conversation) :: ds =>
    { s.spendId with conversation := some conversation, tools := s.tools.clear }.ending
      (.reply s.freshId s.mint.now) ds
  | ds => .resting s.conversation s.history (Mishap.unstarted s.mishap (Delivery.first ds))

/-- What an idle session shows after a turn for the text whose link delivered the given things. -/
def meaning (s : Session) (text : String) (es : List Delivery) : Snapshot :=
  let question := Message.user s.freshId s.mint.now text
  { s.spendId with history := s.history ++ [question] }.reception (Delivery.heard es)

/-! ## One step of a run -/

/-- The turn with its link at what it has yet to deliver. -/
def withFeed (s : Session) (signal : Nat) (es : List Delivery) : Session :=
  { s with phase := s.phase.withLink ⟨signal, .ofDeliveries es false⟩ }

theorem withFeed_awaiting {s : Session} {link : Link} (hp : s.phase = .awaiting link) (signal : Nat)
    (es : List Delivery) :
    (s.withFeed signal es).phase = .awaiting ⟨signal, .ofDeliveries es false⟩ := by
  unfold withFeed
  rw [hp]
  rfl

theorem withFeed_streaming {s : Session} {link : Link} {draft : Message}
    (hp : s.phase = .streaming link draft) (signal : Nat) (es : List Delivery) :
    (s.withFeed signal es).phase = .streaming ⟨signal, .ofDeliveries es false⟩ draft := by
  unfold withFeed
  rw [hp]
  rfl

/-- A run takes in what the link delivers first, if nobody stops it. -/
theorem run_deliver {s : Session} {signal : Nat} {d : Delivery} {es : List Delivery}
    (hl : s.phase.link? = some ⟨signal, .ofDeliveries (d :: es) false⟩)
    (hf : s.switch.hasFired signal = false) : s.run = ((s.withFeed signal es).apply d).run := by
  apply run_of_applied
  simp [step, hl, hf, Feed.fetch, Feed.fetchItems, Feed.ofDeliveries, withFeed]

/-- A link that ends without a word counts as closed. -/
theorem run_end {s : Session} {signal : Nat}
    (hl : s.phase.link? = some ⟨signal, .ofDeliveries [] false⟩)
    (hf : s.switch.hasFired signal = false) :
    s.run = (((s.withFeed signal []).remark .endedSilently).apply (.closed .normal)).run := by
  apply run_of_applied
  simp [step, hl, hf, Feed.fetch, Feed.fetchItems, Feed.ofDeliveries, withFeed]

/-- A run that comes to rest, and what the session shows then. -/
def RunsTo (s : Session) (p : Snapshot) : Prop :=
  s.run.1 = .nothing ∧ s.run.2.phase = .idle ∧ s.run.2.snapshot = p

theorem RunsTo.of_run {s t : Session} {p : Snapshot} (h : t.RunsTo p) (hr : s.run = t.run) :
    s.RunsTo p := by
  unfold RunsTo
  rw [hr]
  exact h

theorem runsTo_of_idle {s : Session} {p : Snapshot} (hp : s.phase = .idle) (h : s.snapshot = p) :
    s.RunsTo p := by
  unfold RunsTo
  rw [run_of_idle hp]
  exact ⟨rfl, hp, h⟩

/-- A turn that fails loses the reply. -/
theorem runsTo_fail (s : Session) (m : Mishap) :
    (s.fail m).publish.RunsTo (.resting s.conversation s.history (some m)) :=
  runsTo_of_idle rfl rfl

/-- Noise is counted and published, and that is all. -/
theorem apply_noise {d : Delivery} (hd : d.isNoise = true) (s : Session) :
    ∃ dropped journal, s.apply d = { s with dropped := dropped, journal := journal } := by
  cases d with
  | opened => exact ⟨_, _, rfl⟩
  | dropped _ => exact ⟨_, _, rfl⟩
  | _ => simp [Delivery.isNoise] at hd

/-! ## A reply that has started -/

/-- A piece is accounted for once the session and the draft have taken it in. -/
theorem ending_piece {s t : Session} {draft grown : Message} {d : Delivery} (ds : List Delivery)
    (hd : d.isPiece = true) (hc : t.conversation = s.conversation) (hh : t.history = s.history)
    (hr : ∀ ds, draft.through s.mint.label s.mint.made s.tools (d :: ds) =
      grown.through t.mint.label t.mint.made t.tools ds) :
    s.ending draft (d :: ds) = t.ending grown ds := by
  unfold ending
  rw [List.takeWhile_cons_of_pos hd, List.dropWhile_cons_of_pos hd]
  dsimp only
  rw [hr, hc, hh]

/-- A link that has nothing left is closed. -/
theorem ending_nil (s : Session) (draft : Message) :
    s.ending draft [] = s.ending draft [.closed .normal] := rfl

theorem ending_last (s : Session) (draft : Message) {d : Delivery} (ds : List Delivery)
    (hd : d.isPiece = false) :
    s.ending draft (d :: ds) =
      .resting s.conversation (s.history ++ ((draft.finish s.tools.runs).ended d).1.toList)
        ((draft.finish s.tools.runs).ended d).2 := by
  simp [ending, Delivery.first, hd, Message.through, Toolbox.through]

/-- A piece lets the reply grow, and what the turn means stays the same. -/
theorem apply_piece {s : Session} {link : Link} {draft : Message} {d : Delivery}
    (hp : s.phase = .streaming link draft) (hd : d.isPiece = true) :
    ∃ grown, (s.apply d).phase = .streaming link grown ∧ (s.apply d).switch = s.switch ∧
      (s.apply d).mishap = s.mishap ∧
      ∀ ds, s.ending draft (d :: ds) = (s.apply d).ending grown ds := by
  cases d with
  | event e =>
    rw [apply_event]
    cases e with
    | delta content =>
      simp only [receive, hp]
      refine ⟨draft.append content, rfl, rfl, rfl, fun ds => ending_piece ds rfl rfl rfl ?_⟩
      intro ds
      simp [Message.through, Toolbox.through, Delivery.text, Message.append, String.join_cons,
        String.append_assoc, publish, announce]
    | toolStart tool arguments =>
      simp only [receive, hp]
      refine ⟨draft, hp, rfl, rfl, fun ds => ending_piece ds rfl rfl rfl ?_⟩
      intro ds
      simp [Message.through, Toolbox.through, Delivery.text, String.join_cons, publish, startTool,
        announce, remark, spendId, freshId]
    | toolEnd tool success summary =>
      simp only [receive, hp]
      rw [finishTool_eq]
      refine ⟨draft, hp, rfl, rfl, fun ds => ending_piece ds rfl rfl rfl ?_⟩
      intro ds
      simp [Message.through, Toolbox.through, Delivery.text, String.join_cons, publish]
    | _ => simp [Delivery.isPiece] at hd
  | _ => simp [Delivery.isPiece] at hd

/-- The delivery that ends a reply leaves what it means. -/
theorem apply_last {s : Session} {link : Link} {draft : Message} {d : Delivery}
    (hp : s.phase = .streaming link draft) (hm : s.mishap = none) (hn : d.isNoise = false)
    (hd : d.isPiece = false) (ds : List Delivery) :
    (s.apply d).RunsTo (s.ending draft (d :: ds)) := by
  rw [ending_last s draft ds hd]
  have fails (m : Mishap) : (s.fail m).publish.RunsTo
      (.resting s.conversation (s.history ++ (none : Option Message).toList) (some m)) := by
    rw [Option.toList_none, List.append_nil]
    exact runsTo_fail s m
  cases d with
  | opened => simp [Delivery.isNoise] at hn
  | dropped _ => simp [Delivery.isNoise] at hn
  | event e =>
    rw [apply_event]
    cases e with
    | start _ =>
      simp only [receive, hp]
      exact fails _
    | error message kind =>
      simp only [receive, hp]
      exact fails _
    | stop =>
      simp only [receive, hp]
      refine runsTo_of_idle rfl ?_
      change Snapshot.resting s.conversation _ s.mishap = _
      rw [hm]
      rfl
    | _ => simp [Delivery.isPiece] at hd
  | closed ending =>
    rw [apply_closed]
    cases ending with
    | normal =>
      simp only [close, hp, Phase.isIdle, Bool.false_eq_true, if_false]
      exact fails _
    | failed failure =>
      simp only [close, hp, Phase.isIdle, Bool.false_eq_true, if_false, Message.ended]
      rw [Option.toList_none, List.append_nil]
      exact runsTo_fail (s.remark .linkFailed) _
    | aborted =>
      refine runsTo_of_idle (abort_phase s) ?_
      cases he : draft.content.isEmpty with
      | true =>
        have hr : (draft.finish s.tools.runs).content.isEmpty = true := he
        simp only [close, abort, hp, he, if_true, Message.ended, hr]
        rw [Option.toList_none, List.append_nil, ← hm]
        rfl
      | false =>
        have hr : (draft.finish s.tools.runs).content.isEmpty = false := he
        simp only [close, abort, hp, he, Bool.false_eq_true, if_false, Message.ended, hr]
        rw [← hm]
        rfl

/-- **A reply that has started ends as it is meant to.** -/
theorem runsTo_ending (es : List Delivery) {s : Session} {signal : Nat} {draft : Message}
    (hp : s.phase = .streaming ⟨signal, .ofDeliveries es false⟩ draft)
    (hf : s.switch.hasFired signal = false) (hm : s.mishap = none) :
    s.RunsTo (s.ending draft (Delivery.heard es)) := by
  induction es generalizing s draft with
  | nil =>
    have hl : s.phase.link? = some ⟨signal, .ofDeliveries [] false⟩ := by rw [hp]; rfl
    have hp' : ((s.withFeed signal []).remark .endedSilently).phase =
        .streaming ⟨signal, .ofDeliveries [] false⟩ draft := withFeed_streaming hp signal []
    change s.RunsTo (s.ending draft [])
    rw [ending_nil]
    exact (apply_last hp' hm rfl rfl []).of_run (run_end hl hf)
  | cons d es ih =>
    have hl : s.phase.link? = some ⟨signal, .ofDeliveries (d :: es) false⟩ := by rw [hp]; rfl
    have hp' := withFeed_streaming hp signal es
    refine RunsTo.of_run ?_ (run_deliver hl hf)
    change ((s.withFeed signal es).apply d).RunsTo
      ((s.withFeed signal es).ending draft (Delivery.heard (d :: es)))
    cases hn : d.isNoise with
    | true =>
      obtain ⟨dropped, journal, ha⟩ := apply_noise hn (s.withFeed signal es)
      rw [ha, Delivery.heard_noise hn]
      exact ih hp' hf hm
    | false =>
      rw [Delivery.heard_cons hn]
      cases hd : d.isPiece with
      | true =>
        obtain ⟨grown, hg, hsw, hmi, he⟩ := apply_piece hp' hd
        rw [he]
        exact ih hg (hsw ▸ hf) (hmi ▸ hm)
      | false => exact apply_last hp' hm hn hd (Delivery.heard es)

/-! ## A reply that has not -/

/-- The first thing that is heard decides: it starts the reply, or it ends the turn with what it leaves. -/
theorem apply_first {s : Session} {link : Link} {d : Delivery} (hp : s.phase = .awaiting link)
    (hn : d.isNoise = false) (hd : ∀ conversation, d ≠ .event (.start conversation))
    (ds : List Delivery) : (s.apply d).RunsTo (s.reception (d :: ds)) := by
  have hr : s.reception (d :: ds) =
      .resting s.conversation s.history (Mishap.unstarted s.mishap d) := by
    unfold reception
    split
    · next conversation _ h => exact absurd (List.cons.inj h).1 (hd conversation)
    · rfl
  rw [hr]
  cases d with
  | opened => simp [Delivery.isNoise] at hn
  | dropped _ => simp [Delivery.isNoise] at hn
  | event e =>
    rw [apply_event]
    cases e with
    | start conversation => exact absurd rfl (hd conversation)
    | _ =>
      simp only [receive, hp]
      exact runsTo_fail s _
  | closed ending =>
    rw [apply_closed]
    cases ending with
    | normal =>
      simp only [close, hp, Phase.isIdle, Bool.false_eq_true, if_false]
      exact runsTo_fail s _
    | failed failure =>
      simp only [close, hp, Phase.isIdle, Bool.false_eq_true, if_false]
      exact runsTo_fail (s.remark .linkFailed) _
    | aborted =>
      refine runsTo_of_idle (abort_phase s) ?_
      simp only [close, abort, hp]
      rfl

/-- **A turn that waits for its reply ends as it is meant to.** -/
theorem runsTo_reception (es : List Delivery) {s : Session} {signal : Nat}
    (hp : s.phase = .awaiting ⟨signal, .ofDeliveries es false⟩)
    (hf : s.switch.hasFired signal = false) :
    s.RunsTo (s.reception (Delivery.heard es)) := by
  induction es generalizing s with
  | nil =>
    have hl : s.phase.link? = some ⟨signal, .ofDeliveries [] false⟩ := by rw [hp]; rfl
    have hp' : ((s.withFeed signal []).remark .endedSilently).phase =
        .awaiting ⟨signal, .ofDeliveries [] false⟩ := withFeed_awaiting hp signal []
    exact (apply_first hp' rfl (by simp) []).of_run (run_end hl hf)
  | cons d es ih =>
    have hl : s.phase.link? = some ⟨signal, .ofDeliveries (d :: es) false⟩ := by rw [hp]; rfl
    have hp' := withFeed_awaiting hp signal es
    refine RunsTo.of_run ?_ (run_deliver hl hf)
    change ((s.withFeed signal es).apply d).RunsTo
      ((s.withFeed signal es).reception (Delivery.heard (d :: es)))
    cases hn : d.isNoise with
    | true =>
      obtain ⟨dropped, journal, ha⟩ := apply_noise hn (s.withFeed signal es)
      rw [ha, Delivery.heard_noise hn]
      exact ih hp' hf
    | false =>
      rw [Delivery.heard_cons hn]
      by_cases hd : ∃ conversation, d = .event (.start conversation)
      · obtain ⟨conversation, rfl⟩ := hd
        have ha : (s.withFeed signal es).apply (.event (.start conversation)) =
            ((s.withFeed signal es).startReply ⟨signal, .ofDeliveries es false⟩
              conversation).publish := by
          simp only [apply, receive, hp']
        rw [ha]
        exact runsTo_ending es rfl hf rfl
      · exact apply_first hp' hn (fun conversation he => hd ⟨conversation, he⟩) (Delivery.heard es)

/-- A message that is sent over a link which opens: the reply to it is awaited, with a signal of its own. -/
theorem request_of_accepted {s : Session} {feed : Feed} (text : String)
    (ho : s.transport.next.1 = .accepted feed) :
    s.request text =
      { ((s.say text).ask ⟨text, s.conversation⟩).remark .linkRequested with
        switch := s.switch.begin
        transport := s.transport.next.2
        phase := .awaiting ⟨s.switch.fired.length, feed⟩ } := by
  have ho' : (s.say text).transport.next.1 = .accepted feed := ho
  unfold request openLink
  rw [ho']
  rfl

/-- A message whose link is refused: its turn fails at once. -/
theorem request_of_refused {s : Session} {reason : String} (text : String)
    (ho : s.transport.next.1 = .refused reason) :
    s.request text =
      ({ (s.say text).ask ⟨text, s.conversation⟩ with
        switch := s.switch.begin
        transport := s.transport.next.2 } : Session).fail (.ofFailure (.request reason)) := by
  have ho' : (s.say text).transport.next.1 = .refused reason := ho
  unfold request openLink
  rw [ho']
  rfl

/-- **A whole turn means what was heard.** However a link that opens and ends delivers, an idle session that
  submits a message comes to rest, and it shows what the turn means. -/
theorem submit_eq_meaning {s : Session} {es : List Delivery} (text : String) (hp : s.phase = .idle)
    (ho : s.transport.next.1 = .accepted (.ofDeliveries es false)) :
    (s.submit text).1 = .nothing ∧ (s.submit text).2.phase = .idle ∧
      (s.submit text).2.snapshot = s.meaning text es := by
  have hs : s.send text = (s.request text).publish := by
    simp only [send, hp, Phase.isIdle, if_true]
    rfl
  have hr := request_of_accepted text ho
  have h : (s.request text).publish.RunsTo
      ((s.request text).publish.reception (Delivery.heard es)) := by
    rw [hr]
    exact runsTo_reception es rfl s.switch.hasFired_begin_new
  have hm : (s.request text).publish.reception (Delivery.heard es) = s.meaning text es := by
    rw [hr]
    unfold meaning reception
    split
    · rfl
    · rfl
  rw [hm] at h
  unfold submit
  rw [hs]
  exact h

/-- A reply in two pieces with a tool between them: one message, with the tool attached. -/
theorem submit_eq_meaning_of_tool :
    let heard : List Delivery :=
      [.opened, .event (.start "c1"), .event (.delta "Hel"), .event (.toolStart "search" []),
        .dropped none, .event (.delta "lo"), .event (.toolEnd "search" true (some "3 hits")),
        .event .stop]
    let s := create .oldest ⟨[.accepted (.ofDeliveries heard false)], .refused "no route"⟩
      ⟨fun n => ["u1", "r1", "t1"][n]?.getD "", 1700, 0⟩
    s.phase = .idle ∧ s.transport.next.1 = .accepted (.ofDeliveries heard false) ∧
      (s.submit "Hi").2.snapshot =
        .resting (some "c1")
          [.user "u1" 1700 "Hi",
            ⟨"r1", .assistant, "Hello", 1700, false,
              some [⟨"t1", "search", [], .success, some "3 hits"⟩]⟩]
          none := by
  intro heard s
  exact ⟨rfl, rfl, (submit_eq_meaning "Hi" rfl rfl).2.2.trans (by decide)⟩

end Session

end Converse
