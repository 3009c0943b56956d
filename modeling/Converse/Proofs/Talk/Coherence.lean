import Converse.Proofs.Talk.Course

/-
  How the parts of a session hang together.

  `Coherent` says it of a session at the end of an operation and of all it has published: text, tools and
  draft are there only while a reply grows, no error is left then, the switch is on exactly while a turn is
  under way, and the history holds finished messages only. `coherent_course` is the result: no course of
  operations leads out of it.
-/

namespace Converse

/-- A message as the history holds it: finished, with tools only on a reply and never an empty list. -/
structure Message.Settled (m : Message) : Prop where
  finished : m.growing = false
  user : m.role = .user → m.tools = none
  tools : m.tools ≠ some []

theorem Message.settled_user (id : String) (timestamp : Int) (content : String) :
    (Message.user id timestamp content).Settled := ⟨rfl, fun _ => rfl, by simp [Message.user]⟩

/-- A finished reply can join the history, whatever tools it used. -/
theorem Message.settled_finish {draft : Message} (h : draft.role = .assistant)
    (tools : List ToolRun) : (draft.finish tools).Settled := by
  refine ⟨rfl, ?_, ?_⟩
  · intro hu
    have : draft.role = .user := hu
    simp [h] at this
  · cases tools <;> simp [Message.finish]

structure Snapshot.Coherent (p : Snapshot) : Prop where
  streaming_iff : p.streaming = true ↔ p.stage = .streaming
  buffer : p.stage ≠ .streaming → p.buffer = ""
  tools : p.stage ≠ .streaming → p.tools = []
  mishap : p.stage = .streaming → p.mishap = none
  messages : ∀ m ∈ p.messages, m.Settled

theorem Snapshot.coherent_initial : Snapshot.initial.Coherent := by
  constructor <;> simp [Snapshot.initial]

namespace Session

/-- The reply that grows in the phase is one that the session itself began. -/
def Phase.Drafted (p : Phase) : Prop :=
  ∀ link draft, p = .streaming link draft →
    draft.role = .assistant ∧ draft.growing = true ∧ draft.tools = none

structure Coherent (s : Session) : Prop where
  snapshot : s.snapshot.Coherent
  running_iff : s.switch.running = true ↔ s.phase ≠ .idle
  drafted : s.phase.Drafted
  published : ∀ p ∈ s.journal.published, p.Coherent

/-- Three of the conditions on a snapshot are about what a session can get wrong. -/
theorem snapshot_coherent {s : Session} (ht : s.phase.stage ≠ .streaming → s.tools.runs = [])
    (hm : s.phase.stage = .streaming → s.mishap = none) (hh : ∀ m ∈ s.history, m.Settled) :
    s.snapshot.Coherent where
  streaming_iff := by simp [snapshot]
  buffer := by
    intro h
    cases hp : s.phase <;> simp [snapshot, hp, Phase.buffer, Phase.stage] at h ⊢
  tools := ht
  mishap := hm
  messages := hh

/-- A session whose turn has ended. -/
theorem coherent_of_idle {s : Session} (hp : s.phase = .idle) (ht : s.tools.runs = [])
    (hr : s.switch.running = false) (hh : ∀ m ∈ s.history, m.Settled)
    (hj : ∀ p ∈ s.journal.published, p.Coherent) : s.Coherent where
  snapshot := snapshot_coherent (fun _ => ht) (by simp [hp, Phase.stage]) hh
  running_iff := by simp [hr, hp]
  drafted := by simp [Phase.Drafted, hp]
  published := hj

/-- The history of a session with a finished reply added to it. -/
theorem Coherent.settled_keep {s : Session} (h : s.Coherent) {link : Link} {draft : Message}
    (hp : s.phase = .streaming link draft) (tools : List ToolRun) :
    ∀ m ∈ s.history ++ [draft.finish tools], m.Settled := by
  intro m hm
  rcases List.mem_append.mp hm with hm | hm
  · exact h.snapshot.messages m hm
  · rw [List.mem_singleton.mp hm]
    exact Message.settled_finish (h.drafted link draft hp).1 tools

/-- No error is left beside a reply that grows. -/
theorem Coherent.mishap_eq_none {s : Session} (h : s.Coherent) {link : Link} {draft : Message}
    (hp : s.phase = .streaming link draft) : s.mishap = none :=
  h.snapshot.mishap (congrArg Phase.stage hp)

theorem Coherent.abort {s : Session} (h : s.Coherent) : s.abort.Coherent := by
  unfold Session.abort
  split
  · exact h
  · exact coherent_of_idle rfl rfl rfl h.snapshot.messages h.published
  · next link draft hp =>
    split
    · exact coherent_of_idle rfl rfl rfl h.snapshot.messages h.published
    · exact coherent_of_idle rfl rfl rfl (h.settled_keep hp _) h.published

theorem Coherent.fail {s : Session} (h : s.Coherent) (m : Mishap) : (s.fail m).Coherent :=
  coherent_of_idle rfl rfl rfl h.snapshot.messages h.published

theorem Coherent.publish {s : Session} (h : s.Coherent) : s.publish.Coherent where
  snapshot := h.snapshot
  running_iff := h.running_iff
  drafted := h.drafted
  published := by
    intro p hp
    rcases List.mem_append.mp hp with hp | hp
    · exact h.published p hp
    · rw [List.mem_singleton.mp hp]
      exact h.snapshot

/-- A turn under way: its switch is on, and no tool and no error is left beside a new draft. -/
theorem Coherent.startReply {s : Session} (h : s.Coherent) {link : Link}
    (hp : s.phase = .awaiting link) (conversation : String) :
    (s.startReply link conversation).Coherent where
  snapshot := snapshot_coherent (fun _ => rfl) (fun _ => rfl) h.snapshot.messages
  running_iff := by
    have hr : s.switch.running = true := h.running_iff.mpr (by simp [hp])
    simpa [Session.startReply, announce, dropTools, spendId, remark] using hr
  drafted := by
    intro _ draft hd
    obtain ⟨-, rfl⟩ := Phase.streaming.inj hd
    exact ⟨rfl, rfl, rfl⟩
  published := h.published

theorem Coherent.grow {s : Session} (h : s.Coherent) {link : Link} {draft : Message}
    (hp : s.phase = .streaming link draft) (content : String) :
    ({ s with phase := .streaming link (draft.append content) }.announce
      (.delta content)).Coherent where
  snapshot :=
    snapshot_coherent (by simp [announce, Phase.stage])
      (fun _ => h.snapshot.mishap (by simp [Session.snapshot, hp, Phase.stage])) h.snapshot.messages
  running_iff := by
    have hr : s.switch.running = true := h.running_iff.mpr (by simp [hp])
    simpa [announce] using hr
  drafted := by
    intro _ d hd
    obtain ⟨-, rfl⟩ := Phase.streaming.inj hd
    exact h.drafted link draft hp
  published := h.published

/-- While a reply grows, its tools can change in any way. -/
theorem Coherent.of_tools {s t : Session} (h : s.Coherent) (hs : s.phase.stage = .streaming)
    (hp : t.phase = s.phase) (hm : t.mishap = s.mishap) (hh : t.history = s.history)
    (hr : t.switch = s.switch) (hj : t.journal.published = s.journal.published) : t.Coherent where
  snapshot := by
    refine snapshot_coherent ?_ ?_ ?_
    · intro hn
      exact absurd (hp ▸ hs) hn
    · intro _
      exact hm ▸ h.snapshot.mishap hs
    · exact hh ▸ h.snapshot.messages
  running_iff := by rw [hr, hp]; exact h.running_iff
  drafted := hp ▸ h.drafted
  published := hj ▸ h.published

theorem Coherent.finishTool {s : Session} (h : s.Coherent) (hs : s.phase.stage = .streaming)
    (tool : String) (success : Bool) (summary : Option String) :
    (s.finishTool tool success summary).Coherent := by
  unfold Session.finishTool
  split
  · exact h.of_tools hs rfl rfl rfl rfl rfl
  · split
    · exact h.of_tools hs rfl rfl rfl rfl rfl
    · exact h.of_tools hs rfl rfl rfl rfl rfl

theorem Coherent.request {s : Session} (h : s.Coherent) (hp : s.phase = .idle) (text : String) :
    (s.request text).Coherent := by
  have hh : ∀ m ∈ (s.request text).history, m.Settled := by
    intro m hm
    have hm : m ∈ s.history ++ [Message.user s.freshId s.mint.now text] := by
      unfold Session.request openLink at hm
      split at hm <;> exact hm
    rcases List.mem_append.mp hm with hm | hm
    · exact h.snapshot.messages m hm
    · rw [List.mem_singleton.mp hm]
      exact Message.settled_user _ _ _
  have ht : s.tools.runs = [] := h.snapshot.tools (by simp [Session.snapshot, hp, Phase.stage])
  revert hh
  unfold Session.request openLink
  split
  · intro hh
    exact ⟨snapshot_coherent (fun _ => ht) (by simp [Phase.stage]) hh,
      by simp [remark, ask, Switch.begin], by simp [Phase.Drafted], h.published⟩
  · intro hh
    exact coherent_of_idle rfl rfl rfl hh h.published

theorem Coherent.fetched {s : Session} (h : s.Coherent) (link : Link) :
    (s.fetched link).Coherent where
  snapshot := by
    rw [snapshot_fetched]
    exact h.snapshot
  running_iff := by
    have hr : (s.fetched link).switch.running = s.switch.running := by
      unfold Session.fetched
      dsimp only
      split <;> rfl
    rw [hr, h.running_iff]
    cases hp : s.phase <;> simp [Session.fetched, hp, Phase.withLink]
  drafted := by
    intro l draft hd
    cases hp : s.phase with
    | streaming l' d =>
      simp only [Session.fetched, hp, Phase.withLink, Phase.streaming.injEq] at hd
      exact hd.2 ▸ h.drafted l' d hp
    | _ => simp [Session.fetched, hp, Phase.withLink] at hd
  published := h.published

theorem Coherent.clear {s : Session} (h : s.Coherent) : s.clear.Coherent := by
  apply Coherent.publish
  refine coherent_of_idle rfl rfl rfl ?_ h.published
  intro m hm
  exact absurd hm (List.not_mem_nil)

theorem invariant_coherent : Invariant Coherent where
  remark _ _ h := ⟨h.snapshot, h.running_iff, h.drafted, h.published⟩
  publish _ h := h.publish
  countDropped _ h := ⟨h.snapshot, h.running_iff, h.drafted, h.published⟩
  abort _ h := h.abort
  fail _ m _ h := h.fail m
  complete _ _ _ hp h := coherent_of_idle rfl rfl rfl (h.settled_keep hp _) h.published
  startReply _ _ conversation hp h := h.startReply hp conversation
  grow _ _ _ content hp h := h.grow hp content
  startTool s _ _ _ _ hp h := h.of_tools (by simp [hp, Phase.stage]) rfl rfl rfl rfl rfl
  finishTool s _ _ _ _ _ hp h := h.finishTool (by simp [hp, Phase.stage]) _ _ _
  setClock _ _ h := ⟨h.snapshot, h.running_iff, h.drafted, h.published⟩
  fetched _ link _ h := h.fetched link
  request _ text hp h := h.request hp text
  clear _ h := h.clear
  signalStop _ h := ⟨h.snapshot, h.running_iff, h.drafted, h.published⟩

theorem coherent_create (matching : Matching) (transport : Transport) (mint : Mint) :
    (create matching transport mint).Coherent :=
  coherent_of_idle rfl rfl rfl (by simp [create]) (by simp [create])

/-- **Every reachable session is coherent**, and so is every snapshot that a watcher ever finds: the first
  one, which is there before anything is published, and all that are published later. -/
theorem coherent_course (matching : Matching) (transport : Transport) (mint : Mint)
    (ops : List (Int × Operation)) :
    let s := (create matching transport mint).course ops
    s.Coherent ∧ ∀ p ∈ Snapshot.initial :: s.journal.published, p.Coherent := by
  intro s
  have h : s.Coherent := invariant_coherent.course ops (coherent_create matching transport mint)
  refine ⟨h, ?_⟩
  intro p hp
  rcases List.mem_cons.mp hp with rfl | hp
  · exact Snapshot.coherent_initial
  · exact h.published p hp

end Session

end Converse
