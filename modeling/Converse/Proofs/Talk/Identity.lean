import Converse.Proofs.Talk.Course

/-
  The identities a session has in use.

  Messages, their tools, the draft and the tools of the turn under way carry identities that the mint has
  given out. `Minted` says that, read in the order of the conversation, they are a sublist of what was given
  out: so where the mint never repeats itself, no two of them are the same.
-/

namespace Converse

/-- The identities given out so far, oldest first. -/
def Mint.given (m : Mint) : List String := (List.range m.made).map m.label

theorem Mint.given_succ (m : Mint) :
    ({ m with made := m.made + 1 } : Mint).given = m.given ++ [m.label m.made] := by
  simp [Mint.given, List.range_succ]

/-- The identities of a message and of the tools attached to it. -/
def Message.identities (m : Message) : List String := m.id :: m.toolList.map ToolRun.id

theorem Message.identities_finish (draft : Message) (tools : List ToolRun) :
    (draft.finish tools).identities = draft.id :: tools.map ToolRun.id := by
  cases tools <;> rfl

/-- The end of a run changes nothing of its identity. -/
theorem Toolbox.map_id_finish {b : Toolbox} {tool : String} {success : Bool}
    {summary : Option String} {r : ToolRun × Toolbox}
    (h : b.finish tool success summary = some r) :
    r.2.runs.map ToolRun.id = b.runs.map ToolRun.id := by
  obtain ⟨before, t, after, hr, -, rfl⟩ := finish_eq_some h
  simp [hr, ToolRun.finish]

namespace Session

/-- The identities of a growing reply and of its tools. -/
def Phase.identities (tools : List ToolRun) : Phase → List String
  | .streaming _ draft => draft.id :: tools.map ToolRun.id
  | _ => []

/-- All identities in use, in the order of the conversation. -/
def identities (s : Session) : List String :=
  s.history.flatMap Message.identities ++ s.phase.identities s.tools.runs

def Minted (s : Session) : Prop := s.identities.Sublist s.mint.given

theorem given_spendId (s : Session) : s.mint.given.Sublist s.spendId.mint.given := by
  have h : s.spendId.mint.given = s.mint.given ++ [s.freshId] := Mint.given_succ s.mint
  rw [h]
  exact List.sublist_append_left _ _

/-- While a reply grows, the tools of its turn have identities of their own. -/
theorem Minted.nodup_tools {s : Session} (h : s.Minted) (hn : s.mint.given.Nodup) {link : Link}
    {draft : Message} (hp : s.phase = .streaming link draft) :
    (s.tools.runs.map ToolRun.id).Nodup := by
  have hi : s.identities.Nodup := hn.sublist h
  unfold identities at hi
  rw [hp] at hi
  exact (List.nodup_cons.mp (List.nodup_append.mp hi).2.1).2

/-- What the history alone has in use. -/
theorem Minted.history {s : Session} (h : s.Minted) :
    (s.history.flatMap Message.identities).Sublist s.mint.given :=
  (List.sublist_append_left _ _).trans h

/-- The history of an ended turn is all that is left in use. -/
theorem minted_of_idle {s : Session} (hp : s.phase = .idle)
    (h : (s.history.flatMap Message.identities).Sublist s.mint.given) : s.Minted := by
  unfold Minted identities
  rw [hp]
  simpa [Phase.identities] using h

/-- A reply that is kept goes on with the identities that it had while it grew. -/
theorem Minted.keep {s : Session} (h : s.Minted) {link : Link} {draft : Message}
    (hp : s.phase = .streaming link draft) :
    ((s.history ++ [draft.finish s.tools.runs]).flatMap Message.identities).Sublist
      s.mint.given := by
  unfold Minted identities at h
  rw [hp] at h
  simpa [Message.identities_finish, Phase.identities] using h

theorem Minted.abort {s : Session} (h : s.Minted) : s.abort.Minted := by
  unfold Session.abort
  split
  · exact h
  · exact minted_of_idle rfl h.history
  · next link draft hp =>
    split
    · exact minted_of_idle rfl h.history
    · exact minted_of_idle rfl (h.keep hp)

theorem Minted.startReply {s : Session} (h : s.Minted) (link : Link) (conversation : String) :
    (s.startReply link conversation).Minted := by
  have hg : (s.startReply link conversation).mint.given = s.mint.given ++ [s.freshId] :=
    Mint.given_succ s.mint
  unfold Minted
  rw [hg]
  exact h.history.append (List.Sublist.refl _)

theorem Minted.startTool {s : Session} (h : s.Minted) {link : Link} {draft : Message}
    (hp : s.phase = .streaming link draft) (tool : String) (arguments : Json.Members) :
    (s.startTool tool arguments).Minted := by
  have hg : (s.startTool tool arguments).mint.given = s.mint.given ++ [s.freshId] :=
    Mint.given_succ s.mint
  have hi : (s.startTool tool arguments).identities = s.identities ++ [s.freshId] := by
    simp [identities, Session.startTool, announce, remark, spendId, hp, Phase.identities,
      Toolbox.start, ToolRun.start]
  unfold Minted
  rw [hg, hi]
  exact h.append (List.Sublist.refl _)

theorem Minted.finishTool {s : Session} (h : s.Minted) {link : Link} {draft : Message}
    (hp : s.phase = .streaming link draft) (tool : String) (success : Bool)
    (summary : Option String) : (s.finishTool tool success summary).Minted := by
  unfold Session.finishTool
  split
  · next r hr =>
    unfold Minted identities at h ⊢
    simpa [announce, remark, hp, Phase.identities, Toolbox.map_id_finish hr] using h
  · split
    · exact h
    · exact h

theorem Minted.say {s : Session} (h : s.Minted) (text : String) :
    ((s.say text).history.flatMap Message.identities).Sublist (s.say text).mint.given := by
  have hg : (s.say text).mint.given = s.mint.given ++ [s.freshId] := Mint.given_succ s.mint
  have hi : (s.say text).history.flatMap Message.identities =
      s.history.flatMap Message.identities ++ [s.freshId] := by
    simp [Session.say, announce, spendId, Message.identities, Message.user, Message.toolList]
  rw [hg, hi]
  exact h.history.append (List.Sublist.refl _)

theorem Minted.request {s : Session} (h : s.Minted) (text : String) :
    (s.request text).Minted := by
  have hs := h.say text
  unfold Session.request openLink
  split
  · unfold Minted identities
    simpa [remark, ask, Phase.identities] using hs
  · exact minted_of_idle rfl hs

theorem invariant_minted : Invariant Minted where
  remark _ _ h := h
  publish _ h := h
  countDropped _ h := h
  abort _ h := h.abort
  fail _ _ _ h := minted_of_idle rfl h.history
  complete _ _ _ hp h := minted_of_idle rfl (h.keep hp)
  startReply _ link conversation _ h := h.startReply link conversation
  grow s _ _ _ hp h := by
    unfold Minted identities at h ⊢
    rw [hp] at h
    exact h
  startTool _ _ _ tool arguments hp h := h.startTool hp tool arguments
  finishTool _ _ _ tool success summary hp h := h.finishTool hp tool success summary
  setClock _ _ h := h
  fetched s link _ h := by
    unfold Minted identities at h ⊢
    cases hp : s.phase <;> simpa [fetched, hp, Phase.withLink, Phase.identities] using h
  request _ text _ h := h.request text
  clear _ _ := minted_of_idle rfl (List.nil_sublist _)
  signalStop _ h := h

end Session

end Converse
