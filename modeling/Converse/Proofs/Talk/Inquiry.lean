import Converse.Proofs.Talk.Stepping
import Mathlib.Data.List.Induction

/-
  What a session asks the server.

  Every message of the user is put to the server as one question, with the identity that the conversation has
  by then. A start that is taken in while a reply is awaited begins it and gives its identity (`begins`); one
  that comes later in the turn only ends the turn (`step_of_second_start`). `inquired_course` is the result:
  since the conversation was cleared, the questions are the messages of the user in the history, and each knows
  what had begun before it. That is not always the start that was taken in last
  (`identity_after_second_start`).
-/

namespace Converse

/-- What the user has said, oldest first. -/
def History.said (h : History) : List String :=
  (h.filter fun m => m.role == .user).map fun m => m.content

theorem History.said_append (h h' : History) : said (h ++ h') = said h ++ said h' := by
  simp [said]

theorem History.said_reply {m : Message} (h : m.role = .assistant) : said [m] = [] := by
  simp [said, h]

/-- The identity that a delivery carries, if it is a start. -/
def Delivery.identity? : Delivery → Option String
  | .event (.start conversation) => some conversation
  | _ => none

namespace Session

/-! ## Starts of replies -/

/-- The identity carried by the start that a deed takes in, if it takes in one. -/
def hears (s : Session) : Deed → Option String
  | .step => s.due.bind Delivery.identity?
  | _ => none

/-- The identity with which a reply begins by a deed, if one does. Only a reply that is awaited can begin. -/
def begins (s : Session) (d : Deed) : Option String :=
  if s.phase.stage = .awaiting then s.hears d else none

/-- Only a step takes anything in. -/
theorem begins_of_ne_step (s : Session) {d : Deed} (hd : d ≠ .step) : s.begins d = none := by
  have hn : s.hears d = none := by
    cases d with
    | step => exact absurd rfl hd
    | _ => rfl
  rw [begins, hn, ite_self]

/-- The identities that deeds bring, in order, each by what the session is when it is done. -/
def along (brings : Session → Deed → Option String) (s : Session) : List Deed → List String
  | [] => []
  | d :: ds => (brings s d).toList ++ (s.enact d).along brings ds

theorem along_concat (brings : Session → Deed → Option String) (s : Session) (ds : List Deed)
    (d : Deed) : s.along brings (ds ++ [d]) = s.along brings ds ++ (brings (s.enactAll ds) d).toList := by
  induction ds generalizing s with
  | nil => exact List.append_nil _
  | cons e ds ih =>
    change (brings s e).toList ++ (s.enact e).along brings (ds ++ [d]) = _
    rw [ih, ← List.append_assoc]
    rfl

/-! ## The identity of the conversation -/

/-- Only the start of a reply that is awaited gives the conversation its identity. -/
theorem conversation_apply (s : Session) (d : Delivery) : (s.apply d).conversation =
    (if s.phase.stage = .awaiting then d.identity? else none).or s.conversation := by
  cases d with
  | opened => cases s.phase <;> rfl
  | dropped _ => cases s.phase <;> rfl
  | event e =>
    rw [apply_event]
    cases hp : s.phase with
    | idle => simp only [receive, hp]; rfl
    | awaiting link => cases e <;> simp only [receive, hp] <;> rfl
    | streaming link draft =>
      cases e with
      | toolEnd tool success summary =>
        simp only [receive, hp]
        exact (finishTool_frame s tool success summary).1
      | _ => simp only [receive, hp]; rfl
  | closed ending =>
    have hc : (s.apply (.closed ending)).conversation = s.conversation := by
      rw [apply_closed]
      cases ending with
      | aborted => exact (abort_frame s).1
      | normal => simp only [close]; split <;> rfl
      | failed failure => simp only [close]; split <;> rfl
    rw [hc]
    cases s.phase <;> rfl

theorem conversation_step (s : Session) :
    s.step.2.conversation = (s.begins .step).or s.conversation := by
  cases hd : s.due with
  | none => simp [step_of_not_due hd, begins, hears, hd]
  | some d =>
    have hconv : s.poised.conversation = s.conversation :=
      congrArg Snapshot.conversation (untouched_poised s).snapshot
    rw [step_of_due hd, conversation_apply, stage_poised, hconv, begins, hears, hd, Option.bind_some]

/-- A start that begins no reply comes within a turn whose reply has begun: the turn fails by it, and the
  conversation keeps its identity. -/
theorem step_of_second_start {s : Session} {conversation : String}
    (heard : s.hears .step = some conversation) (second : s.begins .step = none) :
    s.step.2.phase = .idle ∧
      s.step.2.mishap = some (.disorder "received a second `start` within one turn") ∧
      s.step.2.conversation = s.conversation := by
  have hc : s.step.2.conversation = s.conversation := by rw [conversation_step, second, Option.none_or]
  obtain ⟨d, hd, hi⟩ := Option.bind_eq_some_iff.mp heard
  have hstart : d = .event (.start conversation) := by
    unfold Delivery.identity? at hi
    split at hi
    · exact congrArg (fun c => Delivery.event (.start c)) (Option.some.inj hi)
    · cases hi
  have hstage : s.phase.stage ≠ .awaiting := by
    intro ha
    rw [begins, if_pos ha, heard] at second
    cases second
  have busy : s.poised.phase ≠ .idle :=
    phase_poised fun hp => by cases (due_of_idle hp).symm.trans hd
  have hsame := stage_poised s
  cases hp : s.poised.phase with
  | idle => exact absurd hp busy
  | awaiting link =>
    rw [hp] at hsame
    exact absurd hsame.symm hstage
  | streaming link draft =>
    have hf : s.step.2 =
        (s.poised.fail (.disorder "received a second `start` within one turn")).publish := by
      rw [step_of_due hd, hstart, apply_event]
      simp only [receive, hp]
    exact ⟨by rw [hf]; rfl, by rw [hf]; rfl, hc⟩

theorem conversation_superseded (s : Session) : s.superseded.conversation = s.conversation := by
  unfold superseded
  split
  · rfl
  · exact (abort_frame (s.remark .superseded)).1

theorem conversation_enact (s : Session) {d : Deed} (hd : d ≠ .clear) :
    (s.enact d).conversation = (s.begins d).or s.conversation := by
  by_cases hs : d = .step
  · subst hs
    exact conversation_step s
  rw [begins_of_ne_step s hs, Option.none_or]
  cases d with
  | step => exact absurd rfl hs
  | send text =>
    change (s.superseded.request text).conversation = s.conversation
    rw [← conversation_superseded s]
    unfold request openLink
    split <;> rfl
  | stop =>
    change s.stop.conversation = s.conversation
    unfold stop
    split
    · rfl
    · exact (abort_frame s).1
  | clear => exact absurd rfl hd
  | setClock now => rfl
  | signalStop => rfl

/-! ## What the user has said -/

/-- A reply that joins the history is not said by the user. -/
theorem Coherent.said_keep {s : Session} (h : s.Coherent) {link : Link} {draft : Message}
    (hp : s.phase = .streaming link draft) (tools : List ToolRun) :
    History.said (s.history ++ [draft.finish tools]) = s.history.said := by
  have hr : (draft.finish tools).role = .assistant := (h.drafted link draft hp).1
  rw [History.said_append, History.said_reply hr, List.append_nil]

/-- Whatever becomes of a turn, the user has said the same. -/
theorem kept_said (said : List String) : Kept fun s => s.Coherent ∧ s.history.said = said where
  remark s r h := ⟨invariant_coherent.remark s r h.1, h.2⟩
  publish _ h := ⟨h.1.publish, h.2⟩
  countDropped s h := ⟨invariant_coherent.countDropped s h.1, h.2⟩
  abort s h := by
    refine ⟨h.1.abort, ?_⟩
    unfold abort
    split
    · exact h.2
    · exact h.2
    · next link draft hp =>
      split
      · exact h.2
      · exact (h.1.said_keep hp s.tools.runs).trans h.2
  fail s m _ h := ⟨h.1.fail m, h.2⟩
  complete s link draft hp h :=
    ⟨invariant_coherent.complete s link draft hp h.1, (h.1.said_keep hp s.tools.runs).trans h.2⟩
  startReply _ _ conversation hp h := ⟨h.1.startReply hp conversation, h.2⟩
  grow _ _ _ content hp h := ⟨h.1.grow hp content, h.2⟩
  startTool s link draft tool arguments hp h :=
    ⟨invariant_coherent.startTool s link draft tool arguments hp h.1, h.2⟩
  finishTool s link draft tool success summary hp h := by
    refine ⟨invariant_coherent.finishTool s link draft tool success summary hp h.1, ?_⟩
    unfold finishTool
    split
    · exact h.2
    · split <;> exact h.2

theorem said_superseded {s : Session} (h : s.Coherent) :
    s.superseded.history.said = s.history.said := by
  unfold superseded
  split
  · rfl
  · exact ((kept_said _).abort (s.remark .superseded)
      ⟨invariant_coherent.remark s _ h, rfl⟩).2

/-- A message that is sent is said by the user, and put to the server with the identity of the conversation. -/
theorem asked_send {s : Session} (h : s.Coherent) (text : String) :
    (s.send text).history.said = s.history.said ++ [text] ∧
      (s.send text).journal.questions = s.journal.questions ++ [⟨text, s.conversation⟩] := by
  have hr (u : Session) :
      (u.request text).history = u.history ++ [.user u.freshId u.mint.now text] ∧
        (u.request text).journal.questions = u.journal.questions ++ [⟨text, u.conversation⟩] := by
    unfold request openLink
    split <;> exact ⟨rfl, rfl⟩
  obtain ⟨hh, hq⟩ := hr s.superseded
  constructor
  · change (s.superseded.request text).history.said = _
    rw [hh, History.said_append, said_superseded h]
    rfl
  · change (s.superseded.request text).journal.questions = _
    rw [hq, (supply_superseded s).2, conversation_superseded]

/-- Nothing else is said or asked. -/
theorem unasked_enact {s : Session} (h : s.Coherent) {d : Deed} (hs : ∀ text, d ≠ .send text)
    (hc : d ≠ .clear) : (s.enact d).history.said = s.history.said ∧
      (s.enact d).journal.questions = s.journal.questions := by
  cases d with
  | send text => exact absurd rfl (hs text)
  | clear => exact absurd rfl hc
  | step =>
    exact ⟨((kept_said s.history.said).step (fun link _ _ => ⟨h.fetched link, rfl⟩)
      fun _ => ⟨h, rfl⟩).2, (supply_step s).2⟩
  | stop => exact ⟨((kept_said s.history.said).stop ⟨h, rfl⟩).2, (supply_quiet rfl).2.1⟩
  | setClock now => exact ⟨rfl, rfl⟩
  | signalStop => exact ⟨rfl, rfl⟩

/-! ## Questions -/

/-- Where questions come from: each was put by the sending of its message, as the one after those before it,
  with the last identity that was brought by then. -/
def Asked (brings : Session → Deed → Option String) (s : Session) (ds : List Deed)
    (qs : List Question) : Prop :=
  ∀ earlier q after, qs = earlier ++ q :: after → ∃ before later,
    ds = before ++ .send q.message :: later ∧
      (s.enactAll before).journal.questions = s.journal.questions ++ earlier ∧
      q.conversation = (s.along brings before).getLast?

section Asked

variable {brings : Session → Deed → Option String} {s : Session} {ds : List Deed} {qs : List Question}

theorem Asked.concat_deed (h : s.Asked brings ds qs) (d : Deed) : s.Asked brings (ds ++ [d]) qs := by
  intro earlier q after he
  obtain ⟨before, later, rfl, hq, hc⟩ := h earlier q after he
  exact ⟨before, later ++ [d], by simp, hq, hc⟩

theorem Asked.concat {q : Question} (h : s.Asked brings ds qs)
    (hq : (s.enactAll ds).journal.questions = s.journal.questions ++ qs)
    (hc : q.conversation = (s.along brings ds).getLast?) :
    s.Asked brings (ds ++ [.send q.message]) (qs ++ [q]) := by
  intro earlier r after he
  rcases List.eq_nil_or_concat after with rfl | ⟨after, x, rfl⟩
  · obtain ⟨rfl, hr⟩ := List.append_inj' he rfl
    cases (List.cons.inj hr).1
    exact ⟨ds, [], rfl, hq, hc⟩
  · rw [List.concat_eq_append, ← List.cons_append, ← List.append_assoc] at he
    exact h.concat_deed _ earlier r after (List.append_inj' he rfl).1

end Asked

/-- What deeds have made of a session that began with nothing said and no identity. -/
structure Mirrored (s : Session) (ds : List Deed) : Prop where
  coherent : (s.enactAll ds).Coherent
  identity : (s.enactAll ds).conversation = (s.along begins ds).getLast?
  asked : ∃ qs, (s.enactAll ds).journal.questions = s.journal.questions ++ qs ∧
    qs.map (fun q => q.message) = (s.enactAll ds).history.said ∧ s.Asked begins ds qs

theorem mirrored_nil {s : Session} (h : s.Coherent) (hc : s.conversation = none)
    (hh : s.history = []) : s.Mirrored [] where
  coherent := h
  identity := hc
  asked := by
    refine ⟨[], (List.append_nil _).symm, ?_, ?_⟩
    · change [] = s.history.said
      rw [hh]
      rfl
    · intro earlier q after he
      simp at he

theorem Mirrored.concat {s : Session} {ds : List Deed} (h : s.Mirrored ds) {d : Deed}
    (hd : d ≠ .clear) : s.Mirrored (ds ++ [d]) := by
  obtain ⟨qs, hq, hm, ha⟩ := h.asked
  have he : s.enactAll (ds ++ [d]) = (s.enactAll ds).enact d := enactAll_append s ds [d]
  refine ⟨?_, ?_, ?_⟩
  · rw [he]
    exact invariant_coherent.enact d h.coherent
  · rw [he, conversation_enact _ hd, along_concat, List.getLast?_append, h.identity]
    cases (s.enactAll ds).begins d <;> rfl
  · rw [he]
    by_cases hs : ∃ text, d = .send text
    · obtain ⟨text, rfl⟩ := hs
      obtain ⟨hsaid, hquestions⟩ := asked_send h.coherent text
      refine ⟨qs ++ [⟨text, (s.enactAll ds).conversation⟩], ?_, ?_, ha.concat hq h.identity⟩
      · change ((s.enactAll ds).send text).journal.questions = _
        rw [hquestions, hq, List.append_assoc]
      · change _ = ((s.enactAll ds).send text).history.said
        rw [hsaid, List.map_append, hm]
        rfl
    · obtain ⟨hsaid, hquestions⟩ := unasked_enact h.coherent (fun text ht => hs ⟨text, ht⟩) hd
      exact ⟨qs, hquestions.trans hq, hm.trans hsaid.symm, ha.concat_deed d⟩

theorem mirrored_enactAll {s : Session} (h : s.Mirrored []) {ds : List Deed} (hd : .clear ∉ ds) :
    s.Mirrored ds := by
  induction ds using List.reverseRecOn with
  | nil => exact h
  | append_singleton ds d ih =>
    have hds : .clear ∉ ds := fun hm => hd (List.mem_append_left _ hm)
    have hd' : d ≠ .clear := by
      rintro rfl
      exact hd (List.mem_append_right _ List.mem_cons_self)
    exact (ih hds).concat hd'

/-- **Questions mirror the history.** Since a conversation was created or cleared, the questions that were put to
  the server, refused ones included, have in order the messages of the user in the history, and each was put
  with the identity carried by the last start that had begun a reply before it, or with none. How the turn of
  that reply ended makes no difference. A start that is taken in and begins no reply fails its turn, and the
  conversation keeps its identity. -/
theorem inquired_course (matching : Matching) (transport : Transport) (mint : Mint)
    (ops later : List (Int × Operation)) (fresh : ∀ op, ops.getLast? = some op → op.2 = .clear)
    (unclear : ∀ op ∈ later, op.2 ≠ .clear) :
    let s := (create matching transport mint).course ops
    let t := s.course later
    (∃ qs, t.journal.questions = s.journal.questions ++ qs ∧
      qs.map (fun q => q.message) = t.history.said ∧ s.Asked begins (s.courseDeeds later) qs) ∧
    ∀ before after conversation, s.courseDeeds later = before ++ .step :: after →
      let u := s.enactAll before
      u.hears .step = some conversation → u.begins .step = none →
        u.step.2.phase = .idle ∧
          u.step.2.mishap = some (.disorder "received a second `start` within one turn") ∧
          u.step.2.conversation = u.conversation := by
  intro s t
  have coherent : s.Coherent := (coherent_course matching transport mint ops).1
  have empty : s.conversation = none ∧ s.history = [] := by
    rcases List.eq_nil_or_concat ops with rfl | ⟨earlier, ⟨now, op⟩, rfl⟩
    · exact ⟨rfl, rfl⟩
    · have hop : op = .clear := fresh (now, op) (by simp)
      subst hop
      have hs : s = (((create matching transport mint).course earlier).setClock now).clear := by
        simp [s, course, perform]
      rw [hs]
      exact ⟨rfl, rfl⟩
  have h := mirrored_enactAll (mirrored_nil coherent empty.1 empty.2)
    (clear_not_mem_courseDeeds s unclear)
  have ht : t = s.enactAll (s.courseDeeds later) := course_eq_enactAll s later
  rw [ht]
  exact ⟨h.asked, fun _ _ _ _ => step_of_second_start⟩

/-- After a clearing: a reply that fails by a second start, another try, and a message that supersedes it and is
  refused. -/
theorem inquired_course_of_retry :
    let transport : Transport := ⟨[
      .accepted (.ofDeliveries [.event (.start "c0"), .event .stop] false),
      .accepted (.ofDeliveries [.event (.start "c1"), .event (.start "c9")] false),
      .accepted (.ofDeliveries [.event (.start "c2"), .event (.delta "Hello")] true)],
      .refused "no route"⟩
    let mint : Mint := ⟨fun n => ["u0", "r0", "u1", "r1", "u2", "r2", "u3"][n]?.getD "", 0, 0⟩
    let later := [(1700, .submit "Hi"), (1800, .retry), (1850, .step 2), (1900, .send "Well?")]
    let s := (create .oldest transport mint).course [(1600, .submit "old"), (1650, .clear)]
    let t := s.course later
    let u := s.enactAll [.setClock 1700, .send "Hi", .step]
    t.journal.questions = [⟨"old", none⟩, ⟨"Hi", none⟩, ⟨"Hi", some "c1"⟩, ⟨"Well?", some "c2"⟩] ∧
      t.history.map (fun m => m.content) = ["Hi", "Hi", "Hello", "Well?"] ∧
      (∃ qs, t.journal.questions = s.journal.questions ++ qs ∧
        qs.map (fun q => q.message) = t.history.said ∧ s.Asked begins (s.courseDeeds later) qs) ∧
      u.hears .step = some "c9" ∧ u.step.2.conversation = some "c1" := by
  intro transport mint later
  have h := inquired_course .oldest transport mint [(1600, .submit "old"), (1650, .clear)] later
    (by decide) (by decide)
  have second := h.2 [.setClock 1700, .send "Hi", .step]
    [.step, .setClock 1800, .send "Hi", .setClock 1850, .step, .step, .setClock 1900, .send "Well?"]
    "c9" (by decide) (by decide) (by decide)
  exact ⟨by decide, by decide, h.1, by decide, second.2.2.trans (by decide)⟩

/-- The last start that was taken in is not always the one whose identity the next question carries. -/
theorem identity_after_second_start :
    let transport : Transport :=
      ⟨[.accepted (.ofDeliveries [.event (.start "c1"), .event (.start "c2")] false)], .refused "no route"⟩
    let s := create .oldest transport ⟨fun n => ["u1", "r1", "u2"][n]?.getD "", 0, 0⟩
    let later := [(1700, .submit "Hi"), (1800, .send "Well?")]
    let t := s.course later
    s.along hears (s.courseDeeds later) = ["c1", "c2"] ∧
      t.journal.questions = [⟨"Hi", none⟩, ⟨"Well?", some "c1"⟩] ∧
      ¬ ∃ qs, t.journal.questions = s.journal.questions ++ qs ∧
        qs.map (fun q => q.message) = t.history.said ∧ s.Asked hears (s.courseDeeds later) qs := by
  intro transport s later t
  have hd : s.courseDeeds later =
      [.setClock 1700, .send "Hi", .step, .step, .step, .setClock 1800] ++ .send "Well?" :: [] := by decide
  have ht : t.journal.questions = [⟨"Hi", none⟩, ⟨"Well?", some "c1"⟩] := by decide
  refine ⟨by decide, ht, ?_⟩
  rintro ⟨qs, hq, -, asked⟩
  have hqs : qs = [⟨"Hi", none⟩] ++ ⟨"Well?", some "c1"⟩ :: [] := hq.symm.trans ht
  obtain ⟨before, after, hb, -, hc⟩ := asked _ _ _ hqs
  -- the question was put at the only place where its message was sent
  obtain ⟨rfl, -⟩ := (List.append_cons_inj_of_notMem (by decide) (by decide)).mp (hd.symm.trans hb)
  exact absurd hc (by decide)

end Session

end Converse
