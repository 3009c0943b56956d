import Converse.Proofs.Talk.Identity
import Mathlib.Data.List.DropRight
import Mathlib.Data.List.Nodup

/-
  The grammar of the notices.

  `Notice.next` is an automaton whose states are the stages of a turn. `orderly_course` is the result: it
  takes in the notices of every course and ends in the stage of the session. What a notice has to do with the
  earlier ones of its turn is said by `Fits` (texts, and tools that have started) and by `Unrepeated` (no tool
  ends twice); the latter needs identities that differ.
-/

namespace Converse

namespace Notice

/-- The stage after a notice, if the notice may come in the stage before it. -/
def next : Stage → Notice → Option Stage
  | _, .cleared => some .idle
  | .idle, .turnRequested _ => some .awaiting
  | .awaiting, .turnStarted _ => some .streaming
  | .awaiting, .turnFailed _ | .awaiting, .turnCancelled none => some .idle
  | .streaming, .delta _ | .streaming, .toolStarted _ | .streaming, .toolFinished _ =>
    some .streaming
  | .streaming, .turnFinalized _ | .streaming, .turnFailed _ | .streaming, .turnCancelled _ =>
    some .idle
  | _, _ => none

/-- The stage after all notices, if each may come where it comes. -/
def follow (ns : List Notice) : Option Stage := ns.foldlM next .idle

theorem follow_concat {ns : List Notice} {p q : Stage} {n : Notice} (h : follow ns = some p)
    (hn : next p n = some q) : follow (ns ++ [n]) = some q := by
  unfold follow at h ⊢
  rw [List.foldlM_append, h]
  simpa using hn

/-! ## The latest turn -/

def isRequest : Notice → Bool
  | .turnRequested _ => true
  | _ => false

/-- The notices of the latest turn, those after its request. -/
def turn (ns : List Notice) : List Notice := ns.rtakeWhile fun n => !n.isRequest

theorem turn_request {n : Notice} (hn : n.isRequest = true) (ns : List Notice) :
    turn (ns ++ [n]) = [] := List.rtakeWhile_concat_neg _ _ _ (by simp [hn])

theorem turn_concat {n : Notice} (hn : n.isRequest = false) (ns : List Notice) :
    turn (ns ++ [n]) = turn ns ++ [n] := List.rtakeWhile_concat_pos _ _ _ (by simp [hn])

def text : Notice → String
  | .delta content => content
  | _ => ""

/-- The pieces of the reply in order, as one text. -/
def spoken (ns : List Notice) : String := String.join (ns.map text)

theorem spoken_concat (ns : List Notice) (n : Notice) : spoken (ns ++ [n]) = spoken ns ++ n.text := by
  unfold spoken
  rw [List.map_append, String.join_append]
  simp [String.join]

/-- Each notice stands to the earlier ones of its turn as `P` says. -/
def EachInTurn (P : List Notice → Notice → Prop) (ns : List Notice) : Prop :=
  ∀ before n after, ns = before ++ n :: after → P (turn before) n

theorem eachInTurn_nil (P : List Notice → Notice → Prop) : EachInTurn P [] := by
  intro before n after h
  simp at h

theorem EachInTurn.concat {P : List Notice → Notice → Prop} {ns : List Notice} {n : Notice}
    (h : EachInTurn P ns) (hn : P (turn ns) n) : EachInTurn P (ns ++ [n]) := by
  intro before m after he
  rcases List.eq_nil_or_concat after with rfl | ⟨after, x, rfl⟩
  · obtain ⟨rfl, hm⟩ := List.append_inj' he rfl
    rw [← (List.cons.inj hm).1]
    exact hn
  · rw [List.concat_eq_append, ← List.cons_append, ← List.append_assoc] at he
    exact h before m after (List.append_inj' he rfl).1

/-- What a notice owes to the earlier ones of its turn: a tool that has finished is one that has started, and
  a reply that is kept has the text told before, all of it. -/
def Fits (told : List Notice) : Notice → Prop
  | .toolFinished t =>
    ∃ u, .toolStarted u ∈ told ∧ u.id = t.id ∧ u.tool = t.tool ∧ u.arguments = t.arguments
  | .turnFinalized m => m.content = spoken told
  | .turnCancelled (some m) => m.content = spoken told ∧ m.content ≠ ""
  | .turnCancelled none => spoken told = ""
  | _ => True

/-- A tool that has finished did not finish before. -/
def Unrepeated (told : List Notice) (n : Notice) : Prop :=
  ∀ t u, n = .toolFinished t → .toolFinished u ∈ told → u.id ≠ t.id

/-- The tools of a turn are accounted for by what it told: all have started, and those that have finished are
  not running. -/
structure Accounts (told : List Notice) (runs : List ToolRun) : Prop where
  started : ∀ t ∈ runs,
    ∃ u, .toolStarted u ∈ told ∧ u.id = t.id ∧ u.tool = t.tool ∧ u.arguments = t.arguments
  finished : ∀ u, .toolFinished u ∈ told → ∃ t ∈ runs, t.id = u.id ∧ t.isRunning = false

theorem Accounts.mono {told : List Notice} {runs : List ToolRun} (h : Accounts told runs)
    {n : Notice} (hn : ∀ u, n ≠ .toolFinished u) : Accounts (told ++ [n]) runs where
  started t ht := by
    obtain ⟨u, hu, he⟩ := h.started t ht
    exact ⟨u, List.mem_append_left _ hu, he⟩
  finished u hu := by
    rcases List.mem_append.mp hu with hu | hu
    · exact h.finished u hu
    · exact absurd (List.mem_singleton.mp hu).symm (hn u)

theorem Accounts.start {told : List Notice} {b : Toolbox} (h : Accounts told b.runs)
    (id tool : String) (arguments : Json.Members) :
    Accounts (told ++ [.toolStarted (b.start id tool arguments).1])
      (b.start id tool arguments).2.runs where
  started t ht := by
    rcases List.mem_append.mp ht with ht | ht
    · exact (h.mono (by simp)).started t ht
    · rw [List.mem_singleton.mp ht]
      exact ⟨_, List.mem_append_right _ List.mem_cons_self, rfl, rfl, rfl⟩
  finished u hu := by
    obtain ⟨t, ht, he⟩ := (h.mono (by simp)).finished u hu
    exact ⟨t, List.mem_append_left _ ht, he⟩

theorem Accounts.finish {told : List Notice} {b : Toolbox} (h : Accounts told b.runs)
    {tool : String} {success : Bool} {summary : Option String} {r : ToolRun × Toolbox}
    (hr : b.finish tool success summary = some r) :
    Fits told (.toolFinished r.1) ∧ Accounts (told ++ [.toolFinished r.1]) r.2.runs ∧
      ((b.runs.map ToolRun.id).Nodup → Unrepeated told (.toolFinished r.1)) := by
  obtain ⟨before, t, after, hb, ht, rfl⟩ := Toolbox.finish_eq_some hr
  have hrun : t.isRunning = true := by
    unfold ToolRun.isRunningAs at ht
    simp_all
  have hmem : t ∈ b.runs := by simp [hb]
  refine ⟨h.started t hmem, ⟨?_, ?_⟩, ?_⟩
  · intro u hu
    have hu : u = t.finish success summary ∨ u ∈ b.runs := by
      simp only [hb, List.mem_append, List.mem_cons] at hu ⊢
      tauto
    have hold : ∃ v ∈ b.runs, v.id = u.id ∧ v.tool = u.tool ∧ v.arguments = u.arguments := by
      rcases hu with rfl | hu
      · exact ⟨t, hmem, rfl, rfl, rfl⟩
      · exact ⟨u, hu, rfl, rfl, rfl⟩
    obtain ⟨v, hv, h1, h2, h3⟩ := hold
    obtain ⟨w, hw, h4, h5, h6⟩ := h.started v hv
    exact ⟨w, List.mem_append_left _ hw, h4.trans h1, h5.trans h2, h6.trans h3⟩
  · intro u hu
    rcases List.mem_append.mp hu with hu | hu
    · obtain ⟨v, hv, hid, hv'⟩ := h.finished u hu
      have hne : v ≠ t := by
        rintro rfl
        simp [hrun] at hv'
      refine ⟨v, ?_, hid, hv'⟩
      simp only [hb, List.mem_append, List.mem_cons] at hv ⊢
      tauto
    · cases List.mem_singleton.mp hu
      exact ⟨_, by simp, rfl, t.isRunning_finish success summary⟩
  · intro hn v u hv hu
    cases hv
    intro he
    obtain ⟨w, hw, hid, hw'⟩ := h.finished u hu
    have : w = t := List.inj_on_of_nodup_map hn hw hmem (hid.trans he)
    simp [this, hrun] at hw'

end Notice

namespace Session

open Notice

/-- What the turn under way has told so far. -/
def told (s : Session) : List Notice := turn s.journal.notices

structure Orderly (s : Session) : Prop where
  accepted : follow s.journal.notices = some s.phase.stage
  fits : EachInTurn Fits s.journal.notices
  unrepeated : s.mint.given.Nodup → EachInTurn Unrepeated s.journal.notices
  awaiting : ∀ link, s.phase = .awaiting link → s.told = []
  streaming : ∀ link draft, s.phase = .streaming link draft →
    spoken s.told = draft.content ∧ Accounts s.told s.tools.runs

/-- A change that announces one notice. What the turn has told is asked for only where it goes on. -/
theorem Orderly.announce {s t : Session} {n : Notice} (h : s.Orderly)
    (hj : t.journal.notices = s.journal.notices ++ [n])
    (hn : next s.phase.stage n = some t.phase.stage) (hf : Fits s.told n)
    (hu : t.mint.given.Nodup → s.mint.given.Nodup ∧ Unrepeated s.told n)
    (ha : ∀ link, t.phase = .awaiting link → t.told = [])
    (hs : ∀ link draft, t.phase = .streaming link draft →
      spoken t.told = draft.content ∧ Accounts t.told t.tools.runs) : t.Orderly where
  accepted := by
    rw [hj]
    exact follow_concat h.accepted hn
  fits := by
    rw [hj]
    exact h.fits.concat hf
  unrepeated hg := by
    rw [hj]
    exact (h.unrepeated (hu hg).1).concat (hu hg).2
  awaiting := ha
  streaming := hs

/-- A change that ends the turn. -/
theorem Orderly.finish {s t : Session} {n : Notice} (h : s.Orderly)
    (hj : t.journal.notices = s.journal.notices ++ [n]) (hp : t.phase = .idle)
    (hm : t.mint.given = s.mint.given) (hn : next s.phase.stage n = some .idle)
    (hf : Fits s.told n) : t.Orderly := by
  refine h.announce hj (by rw [hn, hp]; rfl) hf ?_ (by simp [hp]) (by simp [hp])
  intro hg
  refine ⟨hm ▸ hg, ?_⟩
  rintro u v rfl
  cases hs : s.phase.stage <;> simp [hs, next] at hn

/-- A notice tells nothing new of the session but itself. -/
theorem told_concat {s t : Session} {n : Notice}
    (hj : t.journal.notices = s.journal.notices ++ [n]) (hn : n.isRequest = false) :
    t.told = s.told ++ [n] := by
  unfold told
  rw [hj, turn_concat hn]

theorem Orderly.abort {s : Session} (h : s.Orderly) : s.abort.Orderly := by
  unfold Session.abort
  split
  · exact h
  · next link hp =>
    refine h.finish (n := .turnCancelled none) rfl rfl rfl (by rw [hp]; rfl) ?_
    rw [Fits, h.awaiting link hp]
    rfl
  · next link draft hp =>
    have ht := (h.streaming link draft hp).1
    split
    · next he =>
      refine h.finish (n := .turnCancelled none) rfl rfl rfl (by rw [hp]; rfl) ?_
      rw [Fits, ht]
      exact String.isEmpty_iff.mp he
    · next he =>
      refine h.finish (n := .turnCancelled _) rfl rfl rfl (by rw [hp]; rfl) ⟨ht.symm, ?_⟩
      exact fun hc => he (String.isEmpty_iff.mpr hc)

theorem Orderly.fail {s : Session} (h : s.Orderly) (m : Mishap) (hp : s.phase ≠ .idle) :
    (s.fail m).Orderly := by
  refine h.finish (n := .turnFailed m) rfl rfl rfl ?_ trivial
  cases hs : s.phase with
  | idle => exact absurd hs hp
  | awaiting _ => rfl
  | streaming _ _ => rfl

theorem Orderly.complete {s : Session} (h : s.Orderly) {link : Link} {draft : Message}
    (hp : s.phase = .streaming link draft) : (s.complete draft).Orderly :=
  h.finish (n := .turnFinalized _) rfl rfl rfl (by rw [hp]; rfl) (h.streaming link draft hp).1.symm

theorem Orderly.startReply {s : Session} (h : s.Orderly) {link : Link}
    (hp : s.phase = .awaiting link) (conversation : String) :
    (s.startReply link conversation).Orderly := by
  have hj : (s.startReply link conversation).journal.notices =
      s.journal.notices ++ [.turnStarted conversation] := rfl
  have ht : (s.startReply link conversation).told = [.turnStarted conversation] := by
    rw [told_concat hj rfl, h.awaiting link hp, List.nil_append]
  refine h.announce hj (by rw [hp]; rfl) trivial ?_ (by intro l hl; cases hl) ?_
  · intro hg
    exact ⟨hg.sublist (given_spendId s), by simp [Unrepeated]⟩
  · intro l draft hd
    obtain ⟨-, rfl⟩ := Phase.streaming.inj hd
    rw [ht]
    exact ⟨rfl, (by intro t hm; cases hm), by simp⟩

theorem Orderly.grow {s : Session} (h : s.Orderly) {link : Link} {draft : Message}
    (hp : s.phase = .streaming link draft) (content : String) :
    ({ s with phase := .streaming link (draft.append content) }.announce
      (.delta content)).Orderly := by
  obtain ⟨hsp, hacc⟩ := h.streaming link draft hp
  refine h.announce (n := .delta content) rfl (by rw [hp]; rfl) trivial ?_
    (by intro l hl; cases hl) ?_
  · intro hg
    exact ⟨hg, by simp [Unrepeated]⟩
  · intro l d hd
    obtain ⟨-, rfl⟩ := Phase.streaming.inj hd
    rw [told_concat (s := s) (n := .delta content) rfl rfl, spoken_concat, hsp]
    exact ⟨rfl, hacc.mono (by simp)⟩

theorem Orderly.startTool {s : Session} (h : s.Orderly) {link : Link} {draft : Message}
    (hp : s.phase = .streaming link draft) (tool : String) (arguments : Json.Members) :
    (s.startTool tool arguments).Orderly := by
  obtain ⟨hsp, hacc⟩ := h.streaming link draft hp
  refine h.announce (n := .toolStarted _) rfl ?_ trivial ?_ ?_ ?_
  · change next s.phase.stage _ = some s.phase.stage
    rw [hp]
    rfl
  · intro hg
    exact ⟨hg.sublist (given_spendId s), by simp [Unrepeated]⟩
  · intro l hl
    exact absurd (hp.symm.trans hl) (by simp)
  · intro l d hd
    obtain ⟨-, rfl⟩ := Phase.streaming.inj (hp.symm.trans hd)
    rw [told_concat (s := s) (n := .toolStarted _) rfl rfl, spoken_concat, hsp]
    exact ⟨String.append_empty, hacc.start s.freshId tool arguments⟩

theorem Orderly.finishTool {s : Session} (h : s.Orderly) (hm : s.Minted) {link : Link}
    {draft : Message} (hp : s.phase = .streaming link draft) (tool : String) (success : Bool)
    (summary : Option String) : (s.finishTool tool success summary).Orderly := by
  obtain ⟨hsp, hacc⟩ := h.streaming link draft hp
  unfold Session.finishTool
  split
  · next r hr =>
    obtain ⟨hfits, hacc', hun⟩ := hacc.finish hr
    refine h.announce (n := .toolFinished r.1) rfl ?_ hfits ?_ ?_ ?_
    · change next s.phase.stage _ = some s.phase.stage
      rw [hp]
      rfl
    · intro hg
      exact ⟨hg, hun (hm.nodup_tools hg hp)⟩
    · intro l hl
      exact absurd (hp.symm.trans hl) (by simp)
    · intro l d hd
      obtain ⟨-, rfl⟩ := Phase.streaming.inj (hp.symm.trans hd)
      rw [told_concat (s := s) (n := .toolFinished r.1) rfl rfl, spoken_concat, hsp]
      exact ⟨String.append_empty, hacc'⟩
  · split
    · exact ⟨h.accepted, h.fits, h.unrepeated, h.awaiting, h.streaming⟩
    · exact ⟨h.accepted, h.fits, h.unrepeated, h.awaiting, h.streaming⟩

/-- A message that was sent, before its link opens: as if the reply to it were awaited already. -/
theorem Orderly.say {s : Session} (h : s.Orderly) (hp : s.phase = .idle) (text : String)
    (link : Link) : ({ s.say text with phase := .awaiting link } : Session).Orderly := by
  refine h.announce (n := .turnRequested _) rfl (by rw [hp]; rfl) trivial ?_ ?_
    (by intro l d hd; cases hd)
  · intro hg
    exact ⟨hg.sublist (given_spendId s), by simp [Unrepeated]⟩
  · intro l hl
    exact turn_request rfl _

theorem Orderly.request {s : Session} (h : s.Orderly) (hp : s.phase = .idle) (text : String) :
    (s.request text).Orderly := by
  unfold Session.request openLink
  split
  · next feed _ =>
    obtain ⟨h1, h2, h3, h4, h5⟩ := h.say hp text ⟨(s.say text).switch.begin.installed, feed⟩
    exact ⟨h1, h2, h3, h4, h5⟩
  · next reason _ =>
    exact (h.say hp text ⟨0, .closed⟩).finish (n := .turnFailed _) rfl rfl rfl rfl trivial

theorem Orderly.clear {s : Session} (h : s.Orderly) : s.clear.Orderly := by
  refine h.finish (n := .cleared) rfl rfl rfl ?_ trivial
  cases s.phase.stage <;> rfl

theorem Orderly.fetched {s : Session} (h : s.Orderly) (link : Link) :
    (s.fetched link).Orderly where
  accepted := by
    have hs : (s.fetched link).phase.stage = s.phase.stage :=
      congrArg Snapshot.stage (snapshot_fetched s link)
    rw [hs]
    exact h.accepted
  fits := h.fits
  unrepeated := h.unrepeated
  awaiting := by
    intro l hl
    cases hp : s.phase with
    | awaiting l' => exact h.awaiting l' hp
    | _ => simp [Session.fetched, hp, Phase.withLink] at hl
  streaming := by
    intro l draft hd
    cases hp : s.phase with
    | streaming l' d =>
      simp only [Session.fetched, hp, Phase.withLink, Phase.streaming.injEq] at hd
      exact hd.2 ▸ h.streaming l' d hp
    | _ => simp [Session.fetched, hp, Phase.withLink] at hd

theorem invariant_orderly : Invariant fun s => s.Minted ∧ s.Orderly where
  remark _ _ h := ⟨h.1, h.2.1, h.2.2, h.2.3, h.2.4, h.2.5⟩
  publish _ h := ⟨h.1, h.2.1, h.2.2, h.2.3, h.2.4, h.2.5⟩
  countDropped _ h := ⟨h.1, h.2.1, h.2.2, h.2.3, h.2.4, h.2.5⟩
  abort _ h := ⟨h.1.abort, h.2.abort⟩
  fail s m hp h := ⟨invariant_minted.fail s m hp h.1, h.2.fail m hp⟩
  complete s link draft hp h := ⟨invariant_minted.complete s link draft hp h.1, h.2.complete hp⟩
  startReply _ link conversation hp h :=
    ⟨h.1.startReply link conversation, h.2.startReply hp conversation⟩
  grow s link draft content hp h :=
    ⟨invariant_minted.grow s link draft content hp h.1, h.2.grow hp content⟩
  startTool _ _ _ tool arguments hp h :=
    ⟨h.1.startTool hp tool arguments, h.2.startTool hp tool arguments⟩
  finishTool _ _ _ tool success summary hp h :=
    ⟨h.1.finishTool hp tool success summary, h.2.finishTool h.1 hp tool success summary⟩
  setClock _ _ h := ⟨h.1, h.2.1, h.2.2, h.2.3, h.2.4, h.2.5⟩
  fetched s link hl h := ⟨invariant_minted.fetched s link hl h.1, h.2.fetched link⟩
  request _ text hp h := ⟨h.1.request text, h.2.request hp text⟩
  clear s h := ⟨invariant_minted.clear s h.1, h.2.clear⟩
  signalStop _ h := ⟨h.1, h.2.1, h.2.2, h.2.3, h.2.4, h.2.5⟩

theorem orderly_create (matching : Matching) (transport : Transport) (mint : Mint) :
    (create matching transport mint).Orderly where
  accepted := rfl
  fits := eachInTurn_nil _
  unrepeated _ := eachInTurn_nil _
  awaiting l hl := by cases hl
  streaming l d hd := by cases hd

/-- **The notices of every course are in order.** They are taken in by the automaton, which ends in the stage
  of the session; each fits those before it in its turn; and as long as no identity is given out twice, no
  tool ends twice in one turn. -/
theorem orderly_course (matching : Matching) (transport : Transport) (mint : Mint)
    (ops : List (Int × Operation)) :
    let s := (create matching transport mint).course ops
    follow s.journal.notices = some s.phase.stage ∧ EachInTurn Fits s.journal.notices ∧
      (s.mint.given.Nodup → EachInTurn Unrepeated s.journal.notices) := by
  intro s
  have h : s.Minted ∧ s.Orderly :=
    invariant_orderly.course ops
      ⟨minted_of_idle rfl (List.nil_sublist _), orderly_create matching transport mint⟩
  exact ⟨h.2.accepted, h.2.fits, h.2.unrepeated⟩

/-- A reply with two runs of one tool, superseded by a message whose link is refused. -/
theorem orderly_course_of_supersede :
    let feed := Feed.ofDeliveries
      [.event (.start "c1"), .event (.toolStart "search" []), .event (.toolStart "search" []),
        .event (.delta "Hel"), .event (.toolEnd "search" true none),
        .event (.toolEnd "search" false none), .event (.delta "lo")] true
    let s := (create .oldest ⟨[.accepted feed], .refused "no route"⟩
      ⟨fun n => ["u1", "r1", "t1", "t2", "u2"][n]?.getD "", 0, 0⟩).course
        [(1700, .submit "Hi"), (1800, .send "Well?")]
    s.mint.given.Nodup ∧ s.journal.notices.map Notice.name =
        ["turn_requested", "turn_started", "tool_started", "tool_started", "delta",
          "tool_finished", "tool_finished", "delta", "turn_cancelled", "turn_requested",
          "turn_failed"] ∧
      follow s.journal.notices = some .idle ∧ EachInTurn Unrepeated s.journal.notices :=
  ⟨by decide, by decide, (orderly_course _ _ _ _).1, (orderly_course _ _ _ _).2.2 (by decide)⟩

end Session

end Converse
