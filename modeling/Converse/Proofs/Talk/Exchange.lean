import Converse.Proofs.Talk.Coherence
import Mathlib.Data.List.ModifyLast

/-
  The shape of a history.

  A turn is told by its notices: its request, and the reply if one is kept of it. `Exchange` is what a turn
  leaves, and `exchanges` reads from the notices what the turns have left since the conversation was cleared.
  `shaped_course` is the result: the history is these exchanges in order, so every reply in it stands behind
  the message it answers.
-/

namespace Converse

/-- What a turn leaves in the history: the message of the user, and the reply if one was kept. -/
structure Exchange where
  question : Message
  reply : Option Message
deriving DecidableEq, Repr

namespace Exchange

def messages (x : Exchange) : List Message := x.question :: x.reply.toList

/-- What becomes of the exchanges by a notice. A reply that is kept is the reply to the last request. -/
def note (xs : List Exchange) : Notice → List Exchange
  | .turnRequested m => xs ++ [⟨m, none⟩]
  | .turnFinalized m | .turnCancelled (some m) => xs.modifyLast fun x => { x with reply := some m }
  | .cleared => []
  | _ => xs

/-- What the turns have left since the conversation was cleared, as the notices tell it. -/
def exchanges (ns : List Notice) : List Exchange := ns.foldl note []

theorem exchanges_concat (ns : List Notice) (n : Notice) :
    exchanges (ns ++ [n]) = note (exchanges ns) n := List.foldl_append

/-- The user asks, the assistant replies. -/
structure Cast (x : Exchange) : Prop where
  question : x.question.role = .user
  reply : ∀ m, x.reply = some m → m.role = .assistant

/-! ## Messages of exchanges -/

variable {xs : List Exchange}

theorem role_head? (cast : ∀ x ∈ xs, x.Cast) {m : Message}
    (h : (xs.flatMap messages).head? = some m) : m.role = .user := by
  cases xs with
  | nil => cases h
  | cons x xs =>
    cases h
    exact (cast x List.mem_cons_self).question

/-- A reply stands right behind the question of its exchange. -/
theorem reply_behind_question (cast : ∀ x ∈ xs, x.Cast) {before after : List Message} {m : Message}
    (h : xs.flatMap messages = before ++ m :: after) (hm : m.role = .assistant) :
    ∃ earlier u, before = earlier ++ [u] ∧ ⟨u, some m⟩ ∈ xs := by
  induction xs generalizing before with
  | nil => simp at h
  | cons x xs ih =>
    obtain ⟨question, reply⟩ := x
    have hx := cast _ List.mem_cons_self
    have later {before' : List Message} (h : xs.flatMap messages = before' ++ m :: after) :
        ∃ earlier u, before' = earlier ++ [u] ∧ ⟨u, some m⟩ ∈ xs :=
      ih (fun x hx => cast x (List.mem_cons_of_mem _ hx)) h
    have h : question :: (reply.toList ++ xs.flatMap messages) = before ++ m :: after := h
    rcases before with _ | ⟨u, before⟩
    · cases (List.cons.inj h).1
      exact absurd (hx.question.symm.trans hm) (by simp)
    · obtain ⟨rfl, hrest⟩ := List.cons.inj h
      cases reply with
      | none =>
        obtain ⟨earlier, u, rfl, hu⟩ := later hrest
        exact ⟨question :: earlier, u, rfl, List.mem_cons_of_mem _ hu⟩
      | some a =>
        rcases before with _ | ⟨b, before⟩
        · cases (List.cons.inj hrest).1
          exact ⟨[], question, rfl, List.mem_cons_self⟩
        · obtain ⟨rfl, hlater⟩ := List.cons.inj hrest
          obtain ⟨earlier, u, rfl, hu⟩ := later hlater
          exact ⟨question :: a :: earlier, u, rfl, List.mem_cons_of_mem _ hu⟩

end Exchange

namespace Session

open Exchange

/-- What the turns have left since the conversation was cleared. -/
def exchanged (s : Session) : List Exchange := exchanges s.journal.notices

structure Shaped (s : Session) : Prop where
  history : s.history = s.exchanged.flatMap Exchange.messages
  cast : ∀ x ∈ s.exchanged, x.Cast
  /-- The turn under way was asked for last, and it has no reply yet. -/
  pending : s.phase ≠ .idle → ∃ xs u, s.exchanged = xs ++ [⟨u, none⟩] ∧
    (s.journal.questions.getLast?.map fun q => q.message) = some u.content
  mishap : s.mishap.isSome = true → s.exchanged ≠ []

theorem exchanged_announce {s t : Session} {n : Notice}
    (h : t.journal.notices = s.journal.notices ++ [n]) : t.exchanged = note s.exchanged n := by
  unfold exchanged
  rw [h, exchanges_concat]

theorem Shaped.asked {s : Session} (h : s.Shaped) (hp : s.phase ≠ .idle) : s.exchanged ≠ [] := by
  obtain ⟨xs, u, he, -⟩ := h.pending hp
  simp [he]

/-- A change that leaves the exchanges as they are. -/
theorem Shaped.of_same {s t : Session} (h : s.Shaped) (hx : t.exchanged = s.exchanged)
    (hh : t.history = s.history)
    (hp : t.phase ≠ .idle → s.phase ≠ .idle ∧ t.journal.questions = s.journal.questions)
    (hm : t.mishap.isSome = true → s.mishap.isSome = true ∨ s.exchanged ≠ []) : t.Shaped where
  history := by rw [hh, hx, h.history]
  cast := hx ▸ h.cast
  pending ht := by
    rw [hx, (hp ht).2]
    exact h.pending (hp ht).1
  mishap ht := by
    rw [hx]
    exact (hm ht).elim h.mishap id

/-- A change that only shows elsewhere. -/
theorem Shaped.of_eq {s t : Session} (h : s.Shaped) (hj : t.journal.notices = s.journal.notices)
    (hh : t.history = s.history) (hq : t.journal.questions = s.journal.questions)
    (hp : t.phase ≠ .idle → s.phase ≠ .idle) (hm : t.mishap = s.mishap) : t.Shaped :=
  h.of_same (congrArg exchanges hj) hh (fun ht => ⟨hp ht, hq⟩) fun ht => .inl (hm ▸ ht)

/-- A change that ends the turn and keeps its reply. -/
theorem Shaped.of_kept {s t : Session} (h : s.Shaped) (hs : s.phase ≠ .idle) {m : Message}
    (hr : m.role = .assistant)
    (hx : t.exchanged = s.exchanged.modifyLast fun x => { x with reply := some m })
    (hh : t.history = s.history ++ [m]) (hp : t.phase = .idle) : t.Shaped := by
  obtain ⟨xs, u, he, -⟩ := h.pending hs
  have hx : t.exchanged = xs ++ [⟨u, some m⟩] := by
    rw [hx, he, List.modifyLast_concat]
  refine ⟨?_, ?_, fun ht => absurd hp ht, fun _ => by simp [hx]⟩
  · rw [hh, h.history, he, hx]
    simp [Exchange.messages]
  · intro x hm
    rw [hx] at hm
    rcases List.mem_append.mp hm with hm | hm
    · exact h.cast x (he ▸ List.mem_append_left _ hm)
    · cases List.mem_singleton.mp hm
      have hu := h.cast ⟨u, none⟩ (he ▸ List.mem_append_right _ List.mem_cons_self)
      refine ⟨hu.question, ?_⟩
      rintro a ⟨⟩
      exact hr

theorem Shaped.abort {s : Session} (h : s.Shaped) (hc : s.Coherent) : s.abort.Shaped := by
  unfold Session.abort
  split
  · exact h
  · exact h.of_same (exchanged_announce (n := .turnCancelled none) rfl) rfl
      (fun ht => absurd rfl ht) .inl
  · next link draft hp =>
    split
    · exact h.of_same (exchanged_announce (n := .turnCancelled none) rfl) rfl
        (fun ht => absurd rfl ht) .inl
    · exact h.of_kept (m := draft.finish s.tools.runs) (by simp [hp]) (hc.drafted link draft hp).1
        (exchanged_announce (n := .turnCancelled (some _)) rfl) rfl rfl

theorem Shaped.complete {s : Session} (h : s.Shaped) (hc : s.Coherent) {link : Link}
    {draft : Message} (hp : s.phase = .streaming link draft) : (s.complete draft).Shaped :=
  h.of_kept (m := draft.finish s.tools.runs) (by simp [hp]) (hc.drafted link draft hp).1
    (exchanged_announce (n := .turnFinalized _) rfl) rfl rfl

theorem Shaped.finishTool {s : Session} (h : s.Shaped) (tool : String) (success : Bool)
    (summary : Option String) : (s.finishTool tool success summary).Shaped := by
  unfold Session.finishTool
  split
  · exact h.of_same (exchanged_announce (n := .toolFinished _) rfl) rfl (fun ht => ⟨ht, rfl⟩) .inl
  · split
    · exact h.of_eq rfl rfl rfl id rfl
    · exact h.of_eq rfl rfl rfl id rfl

theorem exchanged_say (s : Session) (text : String) :
    (s.say text).exchanged = s.exchanged ++ [⟨.user s.freshId s.mint.now text, none⟩] :=
  exchanged_announce (s := s) (n := .turnRequested _) rfl

/-- A message of the user begins an exchange. -/
theorem Shaped.say {s : Session} (h : s.Shaped) (hp : s.phase = .idle) (text : String) :
    (s.say text).Shaped where
  history := by
    rw [exchanged_say, List.flatMap_append, ← h.history]
    rfl
  cast x hm := by
    rw [exchanged_say] at hm
    rcases List.mem_append.mp hm with hm | hm
    · exact h.cast x hm
    · cases List.mem_singleton.mp hm
      exact ⟨rfl, by rintro a ⟨⟩⟩
  pending hs := absurd hp hs
  mishap _ := by simp [exchanged_say]

theorem Shaped.request {s : Session} (h : s.Shaped) (hp : s.phase = .idle) (text : String) :
    (s.request text).Shaped := by
  have hs := h.say hp text
  have hx := exchanged_say s text
  unfold Session.request openLink
  split
  · refine ⟨hs.history, hs.cast, fun _ => ⟨_, _, hx, ?_⟩, fun _ => ?_⟩
    · simp [remark, ask, Message.user]
    · change (s.say text).exchanged ≠ []
      simp [hx]
  · exact hs.of_same (exchanged_announce (n := .turnFailed _) rfl) rfl (fun ht => absurd rfl ht)
      fun _ => .inr (by simp [hx])

theorem Shaped.clear {s : Session} : s.clear.Shaped := by
  have hx : s.clear.exchanged = [] := exchanged_announce (n := .cleared) rfl
  refine ⟨?_, ?_, fun ht => absurd rfl ht, by rintro ⟨⟩⟩
  · rw [hx]
    rfl
  · rw [hx]
    intro x hm
    exact absurd hm List.not_mem_nil

theorem invariant_shaped : Invariant fun s => s.Coherent ∧ s.Shaped where
  remark s r h := ⟨invariant_coherent.remark s r h.1, h.2.of_eq rfl rfl rfl id rfl⟩
  publish _ h := ⟨h.1.publish, h.2.of_eq rfl rfl rfl id rfl⟩
  countDropped s h := ⟨invariant_coherent.countDropped s h.1, h.2.of_eq rfl rfl rfl id rfl⟩
  abort _ h := ⟨h.1.abort, h.2.abort h.1⟩
  fail _ m hp h :=
    ⟨h.1.fail m, h.2.of_same (exchanged_announce (n := .turnFailed m) rfl) rfl
      (fun ht => absurd rfl ht) fun _ => .inr (h.2.asked hp)⟩
  complete s link draft hp h :=
    ⟨invariant_coherent.complete s link draft hp h.1, h.2.complete h.1 hp⟩
  startReply _ _ conversation hp h :=
    ⟨h.1.startReply hp conversation, h.2.of_same (exchanged_announce (n := .turnStarted _) rfl) rfl
      (fun _ => ⟨by simp [hp], rfl⟩) (by rintro ⟨⟩)⟩
  grow _ _ _ content hp h :=
    ⟨h.1.grow hp content, h.2.of_same (exchanged_announce (n := .delta content) rfl) rfl
      (fun _ => ⟨by simp [hp], rfl⟩) .inl⟩
  startTool s link draft tool arguments hp h :=
    ⟨invariant_coherent.startTool s link draft tool arguments hp h.1,
      h.2.of_same (exchanged_announce (n := .toolStarted _) rfl) rfl (fun ht => ⟨ht, rfl⟩) .inl⟩
  finishTool s link draft tool success summary hp h :=
    ⟨invariant_coherent.finishTool s link draft tool success summary hp h.1,
      h.2.finishTool tool success summary⟩
  setClock s now h := ⟨invariant_coherent.setClock s now h.1, h.2.of_eq rfl rfl rfl id rfl⟩
  fetched _ link hl h :=
    ⟨h.1.fetched link, h.2.of_eq rfl rfl rfl (fun _ => Phase.ne_idle_of_link? hl) rfl⟩
  request _ text hp h := ⟨h.1.request hp text, h.2.request hp text⟩
  clear _ h := ⟨h.1.clear, .clear⟩
  signalStop s h := ⟨invariant_coherent.signalStop s h.1, h.2.of_eq rfl rfl rfl id rfl⟩

theorem shaped_create (matching : Matching) (transport : Transport) (mint : Mint) :
    (create matching transport mint).Shaped where
  history := rfl
  cast x hx := absurd hx List.not_mem_nil
  pending h := absurd rfl h
  mishap h := by cases h

theorem shaped_of_course (matching : Matching) (transport : Transport) (mint : Mint)
    (ops : List (Int × Operation)) :
    let s := (create matching transport mint).course ops
    s.Coherent ∧ s.Shaped :=
  invariant_shaped.course ops
    ⟨coherent_create matching transport mint, shaped_create matching transport mint⟩

/-- **A history is made of exchanges.** It holds what the turns have left since the conversation was cleared, each
  with the message of the user first and at most one reply behind it. So it begins with the user, no two
  replies stand next to each other, the turn under way has its message last, and where there is an error there
  is a message of the user. -/
theorem shaped_course (matching : Matching) (transport : Transport) (mint : Mint)
    (ops : List (Int × Operation)) :
    let s := (create matching transport mint).course ops
    (s.history = s.exchanged.flatMap Exchange.messages ∧ ∀ x ∈ s.exchanged, x.Cast) ∧
    (∀ m, s.history.head? = some m → m.role = .user) ∧
    (∀ before a b after, s.history = before ++ a :: b :: after →
      a.role = .user ∨ b.role = .user) ∧
    (∀ before m after, s.history = before ++ m :: after → m.role = .assistant →
      ∃ earlier u, before = earlier ++ [u] ∧ u.role = .user ∧ ⟨u, some m⟩ ∈ s.exchanged) ∧
    (s.phase ≠ .idle → ∃ u q, s.history.getLast? = some u ∧ u.role = .user ∧
      s.exchanged.getLast? = some ⟨u, none⟩ ∧
      s.journal.questions.getLast? = some q ∧ q.message = u.content) ∧
    (s.mishap.isSome = true → ∃ u ∈ s.history, u.role = .user) := by
  intro s
  have h : s.Coherent ∧ s.Shaped := shaped_of_course matching transport mint ops
  obtain ⟨history, cast, pending, mishap⟩ := h.2
  have behind : ∀ before m after, s.history = before ++ m :: after → m.role = .assistant →
      ∃ earlier u, before = earlier ++ [u] ∧ u.role = .user ∧ ⟨u, some m⟩ ∈ s.exchanged := by
    intro before m after hh hm
    obtain ⟨earlier, u, hb, hu⟩ := reply_behind_question cast (history.symm.trans hh) hm
    exact ⟨earlier, u, hb, (cast _ hu).question, hu⟩
  refine ⟨⟨history, cast⟩, ?_, ?_, behind, ?_, ?_⟩
  · intro m hm
    exact role_head? cast (history ▸ hm)
  · intro before a b after hh
    cases hb : b.role with
    | user => exact .inr rfl
    | assistant =>
      have hh : s.history = (before ++ [a]) ++ b :: after := by simp [hh]
      obtain ⟨earlier, u, he, hu, -⟩ := behind (before ++ [a]) b after hh hb
      obtain ⟨-, ha⟩ := List.append_inj' he rfl
      cases ha
      exact .inl hu
  · intro hp
    obtain ⟨xs, u, he, hq⟩ := pending hp
    obtain ⟨q, hq, hc⟩ := Option.map_eq_some_iff.mp hq
    have hu : (⟨u, none⟩ : Exchange) ∈ s.exchanged :=
      he ▸ List.mem_append_right _ List.mem_cons_self
    refine ⟨u, q, ?_, (cast _ hu).question, ?_, hq, hc⟩
    · rw [history, he]
      simp [Exchange.messages]
    · simp [he]
  · intro hm
    obtain ⟨x, hx⟩ := List.exists_mem_of_ne_nil _ (mishap hm)
    refine ⟨x.question, ?_, (cast x hx).question⟩
    rw [history]
    exact List.mem_flatMap.mpr ⟨x, hx, List.mem_cons_self⟩

end Session

end Converse
