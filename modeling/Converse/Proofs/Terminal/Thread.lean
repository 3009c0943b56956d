import Converse.Proofs.Talk.Inquiry
import Converse.Proofs.Talk.Meaning
import Converse.Proofs.Terminal.Following

/-
  The thread of a conversation at the prompt.

  `Thread` is what of a conversation bears on the next question, and `Thread.after` says what a message makes
  of it: the server is heard to the end of the turn, the start of a reply gives the identity, and how the turn
  ended gives the error. `Rests.said` is the result: a session at rest that sends a message and runs its turn is
  at rest again where the thread says, and it has asked one question.
-/

namespace Converse

/-! ## Links that end -/

namespace Feed

/-- What is delivered by a link. -/
def deliveries (f : Feed) : List Delivery :=
  f.items.filterMap fun
    | .deliver d => some d
    | .fire => none

/-- A link that ends by itself and is never stopped. -/
def Ends (f : Feed) : Prop := f.hangs = false ∧ .fire ∉ f.items

instance (f : Feed) : Decidable f.Ends := inferInstanceAs (Decidable (_ ∧ _))

theorem Ends.eq_ofDeliveries {f : Feed} (h : f.Ends) : f = .ofDeliveries f.deliveries false := by
  obtain ⟨items, hangs⟩ := f
  obtain ⟨rfl, hf⟩ : hangs = false ∧ Feed.Item.fire ∉ items := h
  have delivered : items = (Feed.deliveries ⟨items, false⟩).map .deliver := by
    induction items with
    | nil => rfl
    | cons item items ih =>
      have hf' : .fire ∉ items := fun hm => hf (List.mem_cons_of_mem _ hm)
      cases item with
      | deliver d => exact congrArg (Feed.Item.deliver d :: ·) (ih hf')
      | fire => exact absurd List.mem_cons_self hf
  exact congrArg (Feed.mk · false) delivered

end Feed

namespace Opening

def Ends : Opening → Prop
  | .refused _ => True
  | .accepted feed => feed.Ends

instance : DecidablePred Ends
  | .refused _ => inferInstanceAs (Decidable True)
  | .accepted feed => inferInstanceAs (Decidable feed.Ends)

/-- What a session hears of a link; a link that is refused is heard as one that fails at once. -/
def heard : Opening → List Delivery
  | .refused reason => [.closed (.failed (.request reason))]
  | .accepted feed => Delivery.heard feed.deliveries

end Opening

namespace Transport

/-- Every link that can be opened ends. -/
def Ends (t : Transport) : Prop := (∀ o ∈ t.openings, o.Ends) ∧ t.afterwards.Ends

instance (t : Transport) : Decidable t.Ends := inferInstanceAs (Decidable (_ ∧ _))

theorem Ends.next {t : Transport} (h : t.Ends) : t.next.1.Ends ∧ t.next.2.Ends := by
  obtain ⟨openings, afterwards⟩ := t
  cases openings with
  | nil => exact ⟨h.2, h⟩
  | cons o rest =>
    exact ⟨h.1 o List.mem_cons_self, fun o ho => h.1 o (List.mem_cons_of_mem _ ho), h.2⟩

end Transport

/-! ## What is left of a turn -/

/-- The error left by a turn whose reply had started and ended like this. -/
def Mishap.started : Delivery → Option Mishap
  | .event (.error message kind) => some (.reported message kind)
  | .event (.start _) => some (.violation "received a second `start` within one turn")
  | .closed .normal => some (.violation "stream closed before the reply completed")
  | .closed (.failed failure) => some (.ofFailure failure)
  | _ => none

theorem Message.ended_snd (reply : Message) (d : Delivery) : (reply.ended d).2 = Mishap.started d := by
  cases d with
  | event e => cases e <;> rfl
  | closed ending => cases ending <;> rfl
  | _ => rfl

namespace Delivery

/-- The identity that a turn gives the conversation, by what is heard in it. -/
def begun : List Delivery → Option String
  | .event (.start conversation) :: _ => some conversation
  | _ => none

/-- The error that is there after a turn, by what is heard in it. -/
def left (earlier : Option Mishap) : List Delivery → Option Mishap
  | .event (.start _) :: ds => Mishap.started (first (ds.dropWhile isPiece))
  | ds => Mishap.unstarted earlier (first ds)

end Delivery

namespace Session

theorem reception_frame (s : Session) (ds : List Delivery) :
    (s.reception ds).conversation = (Delivery.begun ds).or s.conversation ∧
      (s.reception ds).mishap = Delivery.left s.mishap ds := by
  unfold reception
  split
  · exact ⟨rfl, Message.ended_snd _ _⟩
  · next h =>
    have hb : Delivery.begun ds = none := by
      unfold Delivery.begun
      split
      · next c rest => exact absurd rfl (h c rest)
      · rfl
    have hl : Delivery.left s.mishap ds = Mishap.unstarted s.mishap (Delivery.first ds) := by
      unfold Delivery.left
      split
      · next c rest => exact absurd rfl (h c rest)
      · rfl
    rw [hb, hl]
    exact ⟨rfl, rfl⟩

/-- The turn of a message whose link ends: the session comes to rest, with the identity and the error that the
  turn leaves. -/
theorem send_run {s : Session} (hp : s.phase = .idle) (ends : s.transport.next.1.Ends)
    (text : String) :
    let t := (s.send text).run.2
    t.phase = .idle ∧
      t.conversation = (Delivery.begun s.transport.next.1.heard).or s.conversation ∧
      t.mishap = Delivery.left s.mishap s.transport.next.1.heard := by
  have hs := send_of_idle hp text
  cases ho : s.transport.next.1 with
  | accepted feed =>
    rw [ho] at ends
    have hr := request_of_accepted text (ho.trans (congrArg Opening.accepted ends.eq_ofDeliveries))
    have runs : (s.send text).RunsTo ((s.send text).reception (Delivery.heard feed.deliveries)) := by
      rw [hs, hr]
      exact runsTo_reception feed.deliveries rfl s.switch.hasFired_begin_new
    obtain ⟨hc, hm⟩ := reception_frame (s.send text) (Delivery.heard feed.deliveries)
    have kept : (s.send text).conversation = s.conversation ∧ (s.send text).mishap = s.mishap := by
      rw [hs, hr]
      exact ⟨rfl, rfl⟩
    rw [kept.1] at hc
    rw [kept.2] at hm
    refine ⟨runs.2.1, ?_, ?_⟩
    · exact (congrArg Snapshot.conversation runs.2.2).trans hc
    · exact (congrArg Snapshot.mishap runs.2.2).trans hm
  | refused reason =>
    rw [hs, request_of_refused text ho, run_of_idle rfl]
    exact ⟨rfl, rfl, rfl⟩

/-! ## Nothing is superseded -/

/-- Another remark, of another kind. -/
theorem unsuperseded_concat {s t : Session} {r : Remark}
    (hj : t.journal.remarks = s.journal.remarks ++ [r]) (hr : r ≠ .superseded)
    (hs : .superseded ∉ s.journal.remarks) : .superseded ∉ t.journal.remarks := by
  rw [hj, List.mem_append, List.mem_singleton]
  rintro (hm | hm)
  · exact hs hm
  · exact hr hm.symm

theorem Intake.unsuperseded {s t : Session} (h : Intake s t)
    (hs : .superseded ∉ s.journal.remarks) : .superseded ∉ t.journal.remarks := by
  cases h with
  | quiet dropped remarks hr => exact fun hm => hs (hr hm)
  | abort =>
    unfold Session.abort
    split
    · exact hs
    · exact unsuperseded_concat (r := .turnCancelled) rfl (by simp) hs
    · split <;> exact unsuperseded_concat (r := .turnCancelled) rfl (by simp) hs
  | fail m _ _ => exact unsuperseded_concat (r := .turnFailed) rfl (by simp) hs
  | failLink f _ =>
    have hl : .superseded ∉ (s.remark .linkFailed).journal.remarks :=
      unsuperseded_concat rfl (by simp) hs
    exact unsuperseded_concat (r := .turnFailed) rfl (by simp) hl
  | start _ _ _ => exact unsuperseded_concat (r := .turnStarted) rfl (by simp) hs
  | grow _ _ _ _ => exact hs
  | startTool _ _ _ _ _ => exact unsuperseded_concat (r := .toolStarted) rfl (by simp) hs
  | finishTool _ _ _ _ => exact unsuperseded_concat (r := .toolFinished) rfl (by simp) hs
  | complete _ _ _ => exact unsuperseded_concat (r := .turnFinalized) rfl (by simp) hs

theorem unsuperseded_step {s : Session} (hs : .superseded ∉ s.journal.remarks) :
    .superseded ∉ s.step.2.journal.remarks := by
  rcases step_intake s with h | ⟨u, t, hu, ht, h⟩
  · rw [h]
    exact hs
  · have polled : .superseded ∉ u.journal.remarks := by
      cases hu with
      | ended link _ => exact unsuperseded_concat (r := .endedSilently) rfl (by simp) hs
      | _ => exact hs
    rw [h]
    exact ht.unsuperseded polled

/-- A message that is sent by a session at rest supersedes nothing. -/
theorem unsuperseded_send {s : Session} (hp : s.phase = .idle)
    (hs : .superseded ∉ s.journal.remarks) (text : String) :
    .superseded ∉ (s.send text).journal.remarks := by
  rw [send_of_idle hp]
  change .superseded ∉ (s.request text).journal.remarks
  unfold request openLink
  split
  · exact unsuperseded_concat (r := .linkRequested) rfl (by simp) hs
  · exact unsuperseded_concat (r := .turnFailed) rfl (by simp) hs

/-- The one session has come from the other by the steps of a turn: nothing more was said or asked, and no link
  was opened. -/
structure Onward (s u : Session) : Prop where
  coherent : u.Coherent
  unsuperseded : .superseded ∉ u.journal.remarks
  said : u.history.said = s.history.said
  asked : u.journal.questions = s.journal.questions
  supply : u.transport = s.transport

theorem Onward.step {s u : Session} (h : Onward s u) : Onward s u.step.2 := by
  obtain ⟨said, asked⟩ := unasked_enact (d := .step) h.coherent (by simp) (by simp)
  exact {
    coherent := invariant_coherent.enact .step h.coherent
    unsuperseded := unsuperseded_step h.unsuperseded
    said := said.trans h.said
    asked := asked.trans h.asked
    supply := (supply_step u).1.trans h.supply }

theorem onward_run {s : Session} (h : s.Coherent) (hs : .superseded ∉ s.journal.remarks) :
    Onward s s.run.2 :=
  runFor_of_step (fun _ h => h.step) s.stepBound ⟨h, hs, rfl, rfl, rfl⟩

end Session

/-! ## The thread -/

/-- What of a conversation bears on the next question. -/
structure Thread where
  /-- What the user said last. -/
  last : Option String
  conversation : Option String
  mishap : Option Mishap
  /-- The links that can still be opened. -/
  server : Transport

namespace Thread

/-- A conversation in which nothing has been said. -/
def fresh (server : Transport) : Thread := ⟨none, none, none, server⟩

/-- The conversation after a message and its turn. -/
def after (t : Thread) (text : String) : Thread :=
  let heard := t.server.next.1.heard
  { last := some text
    conversation := (Delivery.begun heard).or t.conversation
    mishap := Delivery.left t.mishap heard
    server := t.server.next.2 }

/-- What another try would say again: the last thing, if the error allows it. -/
def again (t : Thread) : Option String := if t.mishap.any (·.retryable) then t.last else none

/-- The session is at rest, nothing was superseded in it, and its conversation has come to where the thread
  is. -/
structure Rests (t : Thread) (s : Session) : Prop where
  idle : s.phase = .idle
  coherent : s.Coherent
  unsuperseded : .superseded ∉ s.journal.remarks
  last : s.history.said.getLast? = t.last
  conversation : s.conversation = t.conversation
  mishap : s.mishap = t.mishap
  server : s.transport = t.server

theorem rests_create (matching : Matching) (transport : Transport) (mint : Mint) :
    (fresh transport).Rests (.create matching transport mint) where
  idle := rfl
  coherent := Session.coherent_create matching transport mint
  unsuperseded := List.not_mem_nil
  last := rfl
  conversation := rfl
  mishap := rfl
  server := rfl

namespace Rests

variable {t : Thread} {s : Session} (h : t.Rests s)

include h

/-- **A message is one question, and its turn leaves the session at rest** where the thread says, if the link
  that is opened for it ends. -/
theorem said (ends : t.server.next.1.Ends) (text : String) :
    (t.after text).Rests (s.send text).run.2 ∧
      (s.send text).run.2.journal.questions = s.journal.questions ++ [⟨text, t.conversation⟩] := by
  obtain ⟨said, asked⟩ := Session.asked_send h.coherent text
  obtain ⟨idle, conversation, mishap⟩ := Session.send_run h.idle (h.server ▸ ends) text
  have sent : (s.send text).Coherent := Session.invariant_coherent.enact (.send text) h.coherent
  have turn : Session.Onward (s.send text) (s.send text).run.2 :=
    Session.onward_run sent (Session.unsuperseded_send h.idle h.unsuperseded text)
  constructor
  · exact {
      idle := idle
      coherent := turn.coherent
      unsuperseded := turn.unsuperseded
      last := by rw [turn.said, said, List.getLast?_concat]; rfl
      conversation := by rw [conversation, h.server, h.conversation]; rfl
      mishap := by rw [mishap, h.server, h.mishap]; rfl
      server := by rw [turn.supply, (Session.supply_send s text).1, h.server]; rfl }
  · rw [turn.asked, asked, h.conversation]

/-- Session and thread agree on what another try would say. -/
theorem again_eq : s.again = t.again := by
  have hl : s.history.lastUser.map (fun m => m.content) = t.last := by
    rw [← h.last]
    simp [History.lastUser, History.said]
  unfold Session.again Thread.again
  rw [h.idle, h.mishap, ← hl]
  cases t.mishap with
  | none => rfl
  | some m => cases s.history.lastUser <;> cases hr : m.retryable <;> simp [hr]

/-- A conversation that is forgotten begins anew, and asks nothing by that. -/
theorem cleared : (fresh t.server).Rests s.clear ∧ s.clear.journal.questions = s.journal.questions :=
  ⟨⟨rfl, h.coherent.clear, h.unsuperseded, rfl, rfl, rfl, h.server⟩, rfl⟩

end Rests

end Thread

end Converse
