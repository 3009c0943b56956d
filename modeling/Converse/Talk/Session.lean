import Converse.Reply.Question
import Converse.Link.Feed
import Converse.Talk.Notice
import Converse.Talk.Snapshot
import Converse.Talk.Switch

/-
  A session: one conversation, at most one turn under way.
  The link of a turn lives inside the phase. Whatever ends the turn leaves the phase, and leaving it
  fires the signal of the link, so a link that was left is never consulted again.
-/

namespace Converse

/-- Where identities and times come from. -/
structure Mint where
  label : Nat → String
  now : Int
  /-- How many identities have been given out. -/
  made : Nat

/-- What is worth a line in the log. -/
inductive Remark
  | superseded
  | linkRequested
  | opened
  | frameDropped
  | linkFailed
  | endedSilently
  | turnStarted
  | toolStarted
  | toolFinished
  | toolAmbiguous
  | toolUnmatched
  | turnFinalized
  | turnCancelled
  | turnFailed
  | eventIgnored
deriving DecidableEq, Repr

/-- What a session has let out, oldest first. -/
structure Journal where
  notices : List Notice
  /-- What links were opened for, refused ones included. -/
  questions : List Question
  published : List Snapshot
  remarks : List Remark
deriving DecidableEq, Repr

namespace Session

/-- The open link of a turn, and the signal that closes it. -/
structure Link where
  signal : Nat
  feed : Feed
deriving DecidableEq, Repr

inductive Phase
  | idle
  | awaiting (link : Link)
  | streaming (link : Link) (draft : Message)
deriving DecidableEq, Repr

namespace Phase

def stage : Phase → Stage
  | .idle => .idle
  | .awaiting _ => .awaiting
  | .streaming _ _ => .streaming

def link? : Phase → Option Link
  | .idle => none
  | .awaiting link => some link
  | .streaming link _ => some link

def withLink (link : Link) : Phase → Phase
  | .idle => .idle
  | .awaiting _ => .awaiting link
  | .streaming _ draft => .streaming link draft

def isIdle : Phase → Bool
  | .idle => true
  | _ => false

/-- The text so far of the growing reply. -/
def buffer : Phase → String
  | .streaming _ draft => draft.content
  | _ => ""

theorem isIdle_iff {p : Phase} : p.isIdle = true ↔ p = .idle := by
  cases p <;> simp [isIdle]

theorem link?_eq_none {p : Phase} : p.link? = none ↔ p = .idle := by
  cases p <;> simp [link?]

theorem ne_idle_of_link? {p : Phase} {link : Link} (h : p.link? = some link) : p ≠ .idle := by
  rintro rfl
  cases h

theorem link?_withLink {p : Phase} (h : p ≠ .idle) (link : Link) :
    (p.withLink link).link? = some link := by
  cases p with
  | idle => exact absurd rfl h
  | _ => rfl

end Phase

end Session

structure Session where
  conversation : Option String
  history : History
  tools : Toolbox
  phase : Session.Phase
  mishap : Option Mishap
  /-- Frames without an event, over the whole life of the session. -/
  dropped : Nat
  switch : Switch
  transport : Transport
  mint : Mint
  journal : Journal

namespace Session

def create (matching : Matching) (transport : Transport) (mint : Mint) : Session :=
  { conversation := none
    history := []
    tools := .empty matching
    phase := .idle
    mishap := none
    dropped := 0
    switch := .initial
    transport := transport
    mint := mint
    journal := ⟨[], [], [], []⟩ }

def snapshot (s : Session) : Snapshot :=
  { conversation := s.conversation
    messages := s.history
    streaming := s.phase.stage == .streaming
    buffer := s.phase.buffer
    tools := s.tools.runs
    mishap := s.mishap
    stage := s.phase.stage }

/-! ## What the session lets out -/

def announce (s : Session) (n : Notice) : Session :=
  { s with journal := { s.journal with notices := s.journal.notices ++ [n] } }

def publish (s : Session) : Session :=
  { s with journal := { s.journal with published := s.journal.published ++ [s.snapshot] } }

def ask (s : Session) (q : Question) : Session :=
  { s with journal := { s.journal with questions := s.journal.questions ++ [q] } }

def remark (s : Session) (r : Remark) : Session :=
  { s with journal := { s.journal with remarks := s.journal.remarks ++ [r] } }

/-- A fresh identity. -/
def freshId (s : Session) : String := s.mint.label s.mint.made

/-- Counts an identity as given out. -/
def spendId (s : Session) : Session := { s with mint := { s.mint with made := s.mint.made + 1 } }

/-- The session at a given time. -/
def setClock (s : Session) (now : Int) : Session := { s with mint := { s.mint with now := now } }

/-! ## Ends of a turn -/

/-- Leaves the phase; a link that was open is closed by its signal. -/
def leave (s : Session) : Session :=
  { s with
    phase := .idle
    switch := match s.phase.link? with
      | some link => s.switch.fire link.signal
      | none => s.switch }

def rest (s : Session) : Session := { s with switch := s.switch.rest }

/-- Puts the draft, finished and with the tools of the turn, into the history. -/
def keep (s : Session) (draft : Message) : Session :=
  { s with
    history := s.history ++ [draft.finish s.tools.runs]
    tools := s.tools.clear }

def dropTools (s : Session) : Session := { s with tools := s.tools.clear }

/-- Ends a turn that is not wanted any more: a reply that has text is kept. -/
def abort (s : Session) : Session :=
  match s.phase with
  | .idle => s
  | .awaiting _ =>
    (((s.leave.dropTools).remark .turnCancelled).rest).announce (.turnCancelled none)
  | .streaming _ draft =>
    if draft.content.isEmpty then
      (((s.leave.dropTools).remark .turnCancelled).rest).announce (.turnCancelled none)
    else
      (((s.leave.keep draft).remark .turnCancelled).rest).announce
        (.turnCancelled (some (draft.finish s.tools.runs)))

/-- Ends a turn with an error; text so far is lost. -/
def fail (s : Session) (m : Mishap) : Session :=
  ({ (s.leave.dropTools.remark .turnFailed) with mishap := some m }.rest).announce (.turnFailed m)

/-- Ends a turn whose reply is complete. -/
def complete (s : Session) (draft : Message) : Session :=
  (((s.leave.keep draft).remark .turnFinalized).rest).announce
    (.turnFinalized (draft.finish s.tools.runs))

/-! ## Events of the reply -/

def startReply (s : Session) (link : Link) (conversation : String) : Session :=
  { ((s.remark .turnStarted).spendId).dropTools with
    conversation := some conversation
    mishap := none
    phase := .streaming link (.reply s.freshId s.mint.now) }.announce (.turnStarted conversation)

def startTool (s : Session) (tool : String) (arguments : Json.Members) : Session :=
  let r := s.tools.start s.freshId tool arguments
  ({ s.spendId with tools := r.2 }.remark .toolStarted).announce (.toolStarted r.1)

def finishTool (s : Session) (tool : String) (success : Bool) (summary : Option String) : Session :=
  match s.tools.finish tool success summary with
  | some r => ({ s with tools := r.2 }.remark .toolFinished).announce (.toolFinished r.1)
  | none =>
    (if s.tools.isAmbiguous tool then s.remark .toolAmbiguous else s).remark .toolUnmatched

/-- An event of the reply, in the phase the session is in. -/
def receive (s : Session) (e : Reply.Event) : Session :=
  match s.phase, e with
  | .idle, _ => s.remark .eventIgnored
  | _, .error message kind => s.fail (.reported message kind)
  | .awaiting link, .start conversation => s.startReply link conversation
  | .awaiting _, e => s.fail (.disorder ("received " ++ Json.inTicks e.name ++ " before `start`"))
  | .streaming _ _, .start _ => s.fail (.disorder "received a second `start` within one turn")
  | .streaming link draft, .delta content =>
    { s with phase := .streaming link (draft.append content) }.announce (.delta content)
  | .streaming _ _, .toolStart tool arguments => s.startTool tool arguments
  | .streaming _ _, .toolEnd tool success summary => s.finishTool tool success summary
  | .streaming _ draft, .stop => s.complete draft

/-- The end of a link. -/
def close (s : Session) (ending : Ending) : Session :=
  match ending with
  | .aborted => s.abort
  | .normal =>
    if s.phase.isIdle then s else s.fail (.disorder "stream closed before the reply completed")
  | .failed failure =>
    if s.phase.isIdle then s else (s.remark .linkFailed).fail (.ofFailure failure)

/-- Takes in one delivery and publishes the state after it. -/
def apply (s : Session) (d : Delivery) : Session :=
  (match d with
    | .opened => s.remark .opened
    | .dropped _ => { s with dropped := s.dropped + 1 }.remark .frameDropped
    | .event e => s.receive e
    | .closed ending => s.close ending).publish

/-! ## Operations -/

/-- Opens a link for the question and waits for the reply, or fails at once. -/
def openLink (s : Session) (q : Question) : Session :=
  let next := { s.ask q with switch := s.switch.begin, transport := s.transport.next.2 }
  match s.transport.next.1 with
  | .accepted feed =>
    { next.remark .linkRequested with phase := .awaiting ⟨next.switch.installed, feed⟩ }
  | .refused reason => next.fail (.ofFailure (.request reason))

/-- Puts a message of the user into the history. -/
def say (s : Session) (text : String) : Session :=
  let m := Message.user s.freshId s.mint.now text
  { s.spendId with history := s.history ++ [m] }.announce (.turnRequested m)

/-- Sends a message; a turn under way is ended first, as by `stop`. -/
def send (s : Session) (text : String) : Session :=
  let s := if s.phase.isIdle then s else (s.remark .superseded).abort
  let s := s.say text
  (s.openLink ⟨text, s.conversation⟩).publish

/-- What came of a step. -/
inductive Progress
  /-- No turn is under way. -/
  | nothing
  | applied
  /-- Nothing to take in yet. -/
  | waiting
deriving DecidableEq, Repr

/-- Takes in the next thing of the turn under way. A stop signal comes before anything the link has. -/
def step (s : Session) : Progress × Session :=
  match s.phase.link? with
  | none => (.nothing, s)
  | some link =>
    if s.switch.hasFired link.signal then (.applied, s.apply (.closed .aborted))
    else
      let r := link.feed.fetch
      let next := { s with
        phase := s.phase.withLink { link with feed := r.2.1 }
        switch := if r.2.2 then s.switch.fire link.signal else s.switch }
      match r.1 with
      | .delivery d => (.applied, next.apply d)
      | .ended => (.applied, (next.remark .endedSilently).apply (.closed .normal))
      | .nothing =>
        if r.2.2 then (.applied, next.apply (.closed .aborted)) else (.waiting, s)

/-- Steps until nothing is left to take in, at most `fuel` of them. -/
def runFor : Nat → Session → Progress × Session
  | 0, s => (.nothing, s)
  | fuel + 1, s =>
    match s.step with
    | (.applied, s) => runFor fuel s
    | r => r

/-- How many steps the turn under way can take. -/
def stepBound (s : Session) : Nat :=
  match s.phase.link? with
  | some link => link.feed.items.length + 3
  | none => 1

/-- Takes in everything until the turn ends, or until it has to wait. -/
def run (s : Session) : Progress × Session := runFor s.stepBound s

def submit (s : Session) (text : String) : Progress × Session := (s.send text).run

/-- Sends the last message of the user again, if the error of the conversation allows it. -/
def retry (s : Session) : Bool × Session :=
  match s.phase, s.mishap, s.history.lastUser with
  | .idle, some m, some last => if m.retryable then (true, s.send last.content) else (false, s)
  | _, _, _ => (false, s)

/-- Ends the turn under way; a reply that has text is kept. -/
def stop (s : Session) : Session := if s.phase.isIdle then s else s.abort.publish

/-- Forgets the conversation and closes the link of a turn under way. -/
def clear (s : Session) : Session :=
  ({ s.leave.dropTools with history := [], mishap := none, conversation := none }.rest
    |>.announce .cleared).publish

/-- The stop signal of the latest turn, fired from outside. -/
def signalStop (s : Session) : Session := { s with switch := s.switch.stop }

/-- What can be done with a session. -/
inductive Operation
  | send (text : String)
  | step (count : Nat)
  | run
  | submit (text : String)
  | retry
  | stop
  | clear
  | signalStop
deriving DecidableEq, Repr

/-- What an operation answers. -/
inductive Answer
  | done
  | flag (b : Bool)
  /-- The operation would have to wait. -/
  | pending
deriving DecidableEq, Repr

def Progress.stepAnswer : Progress → Answer
  | .nothing => .flag false
  | .applied => .flag true
  | .waiting => .pending

def Progress.runAnswer : Progress → Answer
  | .waiting => .pending
  | _ => .done

/-- A number of steps; the answer of the last one, or of the first that waits. -/
def steps : Nat → Session → Answer × Session
  | 0, s => (.done, s)
  | 1, s => (s.step.1.stepAnswer, s.step.2)
  | n + 1, s =>
    match s.step with
    | (.waiting, s) => (.pending, s)
    | (_, s) => steps n s

def perform (s : Session) : Operation → Answer × Session
  | .send text => (.done, s.send text)
  | .step count => steps count s
  | .run => (s.run.1.runAnswer, s.run.2)
  | .submit text => let r := s.submit text; (r.1.runAnswer, r.2)
  | .retry => let r := s.retry; (.flag r.1, r.2)
  | .stop => (.done, s.stop)
  | .clear => (.done, s.clear)
  | .signalStop => (.done, s.signalStop)

end Session

end Converse
