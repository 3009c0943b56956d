import Converse.Proofs.Terminal.Thread
import Converse.Proofs.Text.Trimming

/-
  The prompt.

  `Thread.wanted` says what a line asks the server, and `Thread.questions` what a list of lines does, up to the
  one that leaves. `converse_questions` is the result: a console at which these lines are typed asks exactly
  that, one question at a time. The identity that a question carries is the one with which a reply last began;
  a start that comes a second time within a turn is received and does not change it
  (`question_after_second_start`).
-/

namespace Converse

/-! ## Lines -/

namespace Command

theorem ofLine_trimmed (line : String) : ofLine (Text.trimmed line) = ofLine line := by
  unfold ofLine
  rw [Text.toList_trimmed, Text.trim_trim]

/-- Commands are the lines that start with a slash. -/
theorem ofLine_eq_none_iff (line : String) :
    ofLine line = none ↔ (Text.trimmed line).toList.head? ≠ some '/' := by
  unfold ofLine
  rw [Text.toList_trimmed]
  cases h : Text.trim line.toList with
  | nil => simp
  | cons c rest =>
    by_cases hc : c = '/'
    · subst hc
      simp
    · simp [hc]

theorem head?_of_command {line : String} {c : Command} (h : ofLine line = some c) :
    (Text.trimmed line).toList.head? = some '/' := by
  by_contra hn
  rw [(ofLine_eq_none_iff line).mpr hn] at h
  cases h

theorem ofLine_of_blank {line : String} (h : (Text.trimmed line).isEmpty = true) :
    ofLine line = none := by
  rw [ofLine_eq_none_iff, String.isEmpty_iff.mp h]
  simp

end Command

namespace Console

theorem Request.ofLine_of_blank {line : String} (h : (Text.trimmed line).isEmpty = true) :
    Request.ofLine line = .nothing := by
  simp [Request.ofLine, h]

theorem Request.ofLine_of_command {line : String} {c : Command}
    (hc : Command.ofLine line = some c) : Request.ofLine line = .command c := by
  have h : (Text.trimmed line).isEmpty = false := by
    by_contra hn
    rw [Command.ofLine_of_blank (by simpa using hn)] at hc
    cases hc
  simp [Request.ofLine, h, Command.ofLine_trimmed, hc]

theorem Request.ofLine_of_message {line : String} (h : (Text.trimmed line).isEmpty = false)
    (hc : Command.ofLine line = none) : Request.ofLine line = .message (Text.trimmed line) := by
  simp [Request.ofLine, h, Command.ofLine_trimmed, hc]

/-- Only a command to leave leaves. -/
theorem Request.ofLine_eq_exit_iff (line : String) :
    Request.ofLine line = .command .exit ↔ Command.ofLine line = some .exit := by
  cases hc : Command.ofLine line with
  | some c => simp [Request.ofLine_of_command hc]
  | none =>
    cases h : (Text.trimmed line).isEmpty with
    | true => simp [Request.ofLine_of_blank h]
    | false => simp [Request.ofLine_of_message h hc]

end Console

/-! ## What lines ask -/

namespace Thread

/-- What a line asks the server, if anything: another try asks once more what was said last, if the error
  allows it, and a line that is neither blank nor starts with a slash asks what it says. -/
def wanted (t : Thread) (line : String) : Option String :=
  let text := Text.trimmed line
  if Command.ofLine line = some .retry then t.again
  else if text.isEmpty ∨ text.toList.head? = some '/' then none
  else some text

/-- The conversation after a line and its turn, if it starts one. -/
def next (t : Thread) (line : String) : Thread :=
  match t.wanted line with
  | some text => t.after text
  | none => if Command.ofLine line = some .clear then fresh t.server else t

/-- The question of a line, if it asks one: with the identity that the conversation has by then. -/
def asks (t : Thread) (line : String) : List Question :=
  (t.wanted line).toList.map fun text => ⟨text, t.conversation⟩

/-- The questions of typed lines, up to a command to leave or something that is no line. -/
def questions : List Typed → Thread → List Question
  | [], _ => []
  | .unreadable _ :: _, _ => []
  | .line line :: rest, t =>
    if Command.ofLine line = some .exit then []
    else t.asks line ++ questions rest (t.next line)

theorem wanted_of_blank (t : Thread) {line : String} (h : (Text.trimmed line).isEmpty = true) :
    t.wanted line = none := by
  simp [wanted, Command.ofLine_of_blank h, h]

theorem wanted_of_message (t : Thread) {line : String} (h : (Text.trimmed line).isEmpty = false)
    (hc : Command.ofLine line = none) : t.wanted line = some (Text.trimmed line) := by
  simp [wanted, hc, h, (Command.ofLine_eq_none_iff line).mp hc]

theorem wanted_of_command (t : Thread) {line : String} {c : Command}
    (hc : Command.ofLine line = some c) : t.wanted line = if c = .retry then t.again else none := by
  simp [wanted, hc, Command.head?_of_command hc]

theorem next_of_wanted {t : Thread} {line text : String} (h : t.wanted line = some text) :
    t.next line = t.after text ∧ t.asks line = [⟨text, t.conversation⟩] := by
  simp [next, asks, h]

theorem next_of_unwanted {t : Thread} {line : String} (h : t.wanted line = none)
    (hc : Command.ofLine line ≠ some .clear) : t.next line = t ∧ t.asks line = [] := by
  simp [next, asks, h, hc]

theorem next_of_clear (t : Thread) {line : String} (hc : Command.ofLine line = some .clear) :
    t.next line = fresh t.server ∧ t.asks line = [] := by
  have h : t.wanted line = none := t.wanted_of_command hc
  simp [next, asks, h, hc]

theorem ends_next {t : Thread} (h : t.server.Ends) (line : String) : (t.next line).server.Ends := by
  unfold next
  split
  · exact h.next.2
  · split <;> exact h

/-! ## The prompt -/

/-- A console for which no key is awaited: its session rests where the thread says, and these questions were
  asked. -/
structure Holds (t : Thread) (asked : List Question) (c : Console) : Prop where
  rests : t.Rests c.session
  asked : c.session.journal.questions = asked
  keyless : c.interruptAt = none

namespace Holds

variable {t : Thread} {asked : List Question} {c : Console} (h : t.Holds asked c)

include h

theorem print (s : String) : t.Holds asked (c.print s) := ⟨h.rests, h.asked, h.keyless⟩

theorem say (ends : t.server.Ends) (text : String) :
    (t.after text).Holds (asked ++ [⟨text, t.conversation⟩]) (c.say text) := by
  have run : (c.say text).session = (c.session.send text).run.2 :=
    Console.session_follow (c := { c with session := c.session.send text }) h.keyless
  obtain ⟨rests, questions⟩ := h.rests.said ends.next.1 text
  refine ⟨?_, ?_,
    (Console.setup_followFor (c := { c with session := c.session.send text }) _ h.keyless).1⟩
  · rw [run]
    exact rests
  · rw [run, questions, h.asked]

/-- Another try says once more what can be said again, or it only tells that there is nothing. -/
theorem retry : c.obey .retry = match t.again with
    | some text => c.say text
    | none => c.print "Nothing to retry.\n" := by
  rw [← h.rests.again_eq]
  unfold Console.obey
  dsimp only
  rw [Session.retry_eq]
  cases c.session.again <;> rfl

theorem obey (ends : t.server.Ends) {line : String} {command : Command}
    (hc : Command.ofLine line = some command) :
    (t.next line).Holds (asked ++ t.asks line) (c.obey command) := by
  have hw := t.wanted_of_command hc
  cases command with
  | retry =>
    rw [h.retry]
    rw [if_pos rfl] at hw
    cases ha : t.again with
    | some text =>
      obtain ⟨hn, hq⟩ := next_of_wanted (hw.trans ha)
      rw [hn, hq]
      exact h.say ends text
    | none =>
      obtain ⟨hn, hq⟩ := next_of_unwanted (hw.trans ha) (by simp [hc])
      rw [hn, hq, List.append_nil]
      exact h.print _
  | clear =>
    obtain ⟨hn, hq⟩ := t.next_of_clear hc
    obtain ⟨rests, questions⟩ := h.rests.cleared
    rw [hn, hq, List.append_nil]
    exact ⟨rests, questions.trans h.asked, h.keyless⟩
  | _ =>
    obtain ⟨hn, hq⟩ := next_of_unwanted hw (by simp [hc])
    rw [hn, hq, List.append_nil]
    exact ⟨h.rests, h.asked, h.keyless⟩

/-- **A line asks what is wanted by it and nothing else**, and then the session is at rest again. -/
theorem perform (ends : t.server.Ends) (line : String) :
    (t.next line).Holds (asked ++ t.asks line) (c.perform (Console.Request.ofLine line)) := by
  cases hc : Command.ofLine line with
  | some command =>
    rw [Console.Request.ofLine_of_command hc]
    exact h.obey ends hc
  | none =>
    cases hb : (Text.trimmed line).isEmpty with
    | true =>
      obtain ⟨hn, hq⟩ := next_of_unwanted (t.wanted_of_blank hb) (by simp [hc])
      rw [Console.Request.ofLine_of_blank hb, hn, hq, List.append_nil]
      exact h
    | false =>
      obtain ⟨hn, hq⟩ := next_of_wanted (t.wanted_of_message hb hc)
      rw [Console.Request.ofLine_of_message hb hc, hn, hq]
      exact h.say ends _

end Holds

end Thread

namespace Console

/-- The lines typed at a prompt, from where a thread has come to. -/
theorem converse_holds (lines : List Typed) {t : Thread} {asked : List Question} {c : Console}
    (h : t.Holds asked c) (ends : t.server.Ends) :
    (converse lines c).1 ≠ .waits ∧
      ∃ u, Thread.Holds u (asked ++ t.questions lines) (converse lines c).2 := by
  induction lines generalizing t asked c with
  | nil =>
    refine ⟨by simp [converse], t, ?_⟩
    rw [Thread.questions, List.append_nil]
    exact (h.print _).print _
  | cons typed lines ih =>
    cases typed with
    | unreadable fault =>
      refine ⟨by simp [converse], t, ?_⟩
      rw [Thread.questions, List.append_nil]
      exact ⟨h.rests, h.asked, h.keyless⟩
    | line line =>
      by_cases hx : Command.ofLine line = some .exit
      · have hr := (Request.ofLine_eq_exit_iff line).mpr hx
        have hc : converse (.line line :: lines) c = (.code 0, c.print "> ") := by
          simp [converse, hr]
        rw [hc]
        refine ⟨by simp, t, ?_⟩
        simpa [Thread.questions, hx] using h.print "> "
      · have hr := mt (Request.ofLine_eq_exit_iff line).mp hx
        have hn := (h.print "> ").perform ends line
        have hc : converse (.line line :: lines) c =
            converse lines ((c.print "> ").perform (Request.ofLine line)) := by
          simp [converse, hr, hn.rests.idle, Session.Phase.isIdle]
        have hq : asked ++ t.questions (.line line :: lines) =
            asked ++ t.asks line ++ (t.next line).questions lines := by
          simp [Thread.questions, hx]
        rw [hc, hq]
        exact ih hn (Thread.ends_next ends line)

/-- **The prompt asks what is wanted.** On a new session, with links that are refused or end and no key
  pressed, the questions put to the server are exactly those of the typed lines, in order, no turn waits for
  ever, and none is superseded. -/
theorem converse_questions (matching : Matching) (transport : Transport) (mint : Mint)
    (lines : List Typed) (ends : transport.Ends) :
    let r := converse lines (create (.create matching transport mint) true none)
    r.2.session.journal.questions = (Thread.fresh transport).questions lines ∧
      r.1 ≠ .waits ∧ r.2.session.phase = .idle ∧ .superseded ∉ r.2.session.journal.remarks := by
  intro r
  have fresh : (Thread.fresh transport).Holds []
      (create (.create matching transport mint) true none) :=
    ⟨Thread.rests_create matching transport mint, rfl, rfl⟩
  obtain ⟨goes, u, holds⟩ := converse_holds lines fresh ends
  exact ⟨holds.asked, goes, holds.rests.idle, holds.rests.unsuperseded⟩

/-- Another try after a reply that breaks off, and a message after a clearing, which is refused; what comes after
  the command to leave is not read. -/
theorem converse_questions_of_retry :
    let broken := Feed.ofDeliveries
      [.event (.start "c1"), .event (.delta "Hel"), .closed (.failed (.connection "reset"))] false
    let whole := Feed.ofDeliveries [.event (.start "c2"), .event (.delta "Hello"), .event .stop] false
    let transport : Transport := ⟨[.accepted broken, .accepted whole], .refused "no route"⟩
    let mint : Mint := ⟨fun n => ["u1", "r1", "u2", "r2", "u3"][n]?.getD "", 1700, 0⟩
    let lines : List Typed :=
      [.line "  Hi\n", .line "\n", .line " /R now\n", .line "/retry\n", .line "/clear\n",
        .line "Well?\n", .line "/q\n", .line "more\n"]
    let r := converse lines (create (.create .oldest transport mint) true none)
    transport.Ends ∧
      r.2.session.journal.questions = [⟨"Hi", none⟩, ⟨"Hi", some "c1"⟩, ⟨"Well?", none⟩] ∧
      r.1 ≠ .waits :=
  ⟨by decide, (converse_questions .oldest _ _ _ (by decide)).1.trans (by decide),
    (converse_questions .oldest _ _ _ (by decide)).2.1⟩

/-- A start that comes a second time within a turn is received, and the turn fails by it, but the next question
  carries the identity of the start before it. -/
theorem question_after_second_start :
    let delivered : List Delivery := [.event (.start "c1"), .event (.start "c2")]
    let transport : Transport := ⟨[.accepted (.ofDeliveries delivered false)], .refused "no route"⟩
    let mint : Mint := ⟨fun n => ["u1", "r1", "u2"][n]?.getD "", 1700, 0⟩
    let r := converse [.line "Hi\n", .line "Well?\n"]
      (create (.create .oldest transport mint) true none)
    transport.Ends ∧ delivered.getLast? = some (.event (.start "c2")) ∧
      .turnFailed (.disorder "received a second `start` within one turn") ∈
        r.2.session.journal.notices ∧
      r.2.session.journal.questions = [⟨"Hi", none⟩, ⟨"Well?", some "c1"⟩] := by
  decide

end Console

end Converse
