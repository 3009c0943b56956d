import Converse.Proofs.Talk.Exchange
import Converse.Proofs.Talk.Identity
import Converse.Proofs.Talk.Intake
import Mathlib.Data.List.Infix

/-
  What carries which identity.

  The messages of the history with their tools, the growing reply and the tools of the turn under way all have
  identities of their own. A reply has the identity that its draft got when it started: `Carries` says that a
  change starts no reply and keeps the identity of the one that grows, `Grows` that deeds end while a reply
  grows that started in them, and `Named` that every reply which was kept ended such growth. `named_course` is
  the result.
-/

namespace Converse

/-- The reply that a notice tells to have joined the history. -/
def Notice.kept? : Notice → Option Message
  | .turnFinalized m => some m
  | .turnCancelled m => m
  | _ => none

/-- Where an element of two lists in a row stands: in the first, or behind it. -/
theorem mem_of_append_eq {α : Type} {front back before after : List α} {x : α}
    (h : front ++ back = before ++ x :: after) :
    (∃ rest, front = before ++ x :: rest) ∨ (front <+: before ∧ x ∈ back) := by
  rcases List.append_eq_append_iff.mp h with ⟨mid, rfl, hb⟩ | ⟨mid, rfl, hm⟩
  · exact .inr ⟨List.prefix_append _ _, by simp [hb]⟩
  · cases mid with
    | nil =>
      have hm : x :: after = back := hm
      exact .inr ⟨by simp, hm ▸ List.mem_cons_self⟩
    | cons y rest =>
      cases (List.cons.inj hm).1
      exact .inl ⟨rest, rfl⟩

namespace Exchange

theorem mem_modifyLast {f : Exchange → Exchange} {xs : List Exchange} {x : Exchange}
    (h : x ∈ xs.modifyLast f) : x ∈ xs ∨ ∃ y, x = f y := by
  rcases List.eq_nil_or_concat xs with rfl | ⟨xs, y, rfl⟩
  · exact .inl h
  · rw [List.concat_eq_append, List.modifyLast_concat] at h
    rcases List.mem_append.mp h with h | h
    · exact .inl (by simp [h])
    · exact .inr ⟨y, List.mem_singleton.mp h⟩

/-- A reply that is part of an exchange was told to be kept. -/
theorem exists_kept {ns : List Notice} {x : Exchange} (hx : x ∈ exchanges ns) {m : Message}
    (hm : x.reply = some m) : ∃ n ∈ ns, n.kept? = some m := by
  induction ns using List.reverseRecOn generalizing x with
  | nil => exact absurd hx List.not_mem_nil
  | append_singleton ns n ih =>
    have before (hx : x ∈ exchanges ns) : ∃ k ∈ ns ++ [n], k.kept? = some m := by
      obtain ⟨k, hk, hkept⟩ := ih hx hm
      exact ⟨k, List.mem_append_left _ hk, hkept⟩
    have joined {reply : Message} (hn : n.kept? = some reply)
        (hx : x ∈ (exchanges ns).modifyLast fun y => { y with reply := some reply }) :
        ∃ k ∈ ns ++ [n], k.kept? = some m := by
      rcases mem_modifyLast hx with hx | ⟨y, rfl⟩
      · exact before hx
      · exact ⟨n, by simp, hn.trans hm⟩
    rw [exchanges_concat] at hx
    cases n with
    | turnRequested u =>
      rcases List.mem_append.mp hx with hx | hx
      · exact before hx
      · cases List.mem_singleton.mp hx
        cases hm
    | turnFinalized reply => exact joined rfl hx
    | turnCancelled reply =>
      cases reply with
      | none => exact before hx
      | some reply => exact joined rfl hx
    | cleared => exact absurd hx List.not_mem_nil
    | _ => exact before hx

end Exchange

namespace Session

/-! ## Identities at hand -/

/-- The growing reply. -/
def Phase.draft? : Phase → Option Message
  | .streaming _ draft => some draft
  | _ => none

/-- All identities at hand: of the messages in the history and of their tools, of the growing reply, and of
  the tools of the turn. -/
def atHand (s : Session) : List String :=
  s.history.flatMap Message.identities
    ++ (s.phase.draft?.toList.map Message.id ++ s.tools.runs.map ToolRun.id)

/-- Tools are there only beside a growing reply. -/
theorem Coherent.atHand_eq {s : Session} (h : s.Coherent) : s.atHand = s.identities := by
  have rests (hs : s.phase.stage ≠ .streaming) : s.tools.runs = [] := h.snapshot.tools hs
  unfold atHand identities
  cases hp : s.phase with
  | streaming link draft => rfl
  | idle => simp [rests (by simp [hp, Phase.stage]), Phase.draft?, Phase.identities]
  | awaiting link => simp [rests (by simp [hp, Phase.stage]), Phase.draft?, Phase.identities]

/-! ## Changes that start no reply -/

/-- From the one session to the other no reply starts: a reply that is told to be kept is the one that grew
  before, and so is one that grows after. -/
structure Carries (s t : Session) : Prop where
  told : ∃ ns, t.journal.notices = s.journal.notices ++ ns ∧ ∀ n ∈ ns, ∀ m, n.kept? = some m →
    ∃ link draft, s.phase = .streaming link draft ∧ draft.id = m.id
  grown : ∀ link' draft', t.phase = .streaming link' draft' →
    ∃ link draft, s.phase = .streaming link draft ∧ link.signal = link'.signal ∧ draft.id = draft'.id

/-- A change that tells nothing. -/
theorem carries_of_quiet {s t : Session} (hj : t.journal.notices = s.journal.notices)
    (grown : ∀ link' draft', t.phase = .streaming link' draft' → ∃ link draft,
      s.phase = .streaming link draft ∧ link.signal = link'.signal ∧ draft.id = draft'.id) :
    Carries s t where
  told := ⟨[], by rw [hj, List.append_nil], fun n hn => absurd hn List.not_mem_nil⟩
  grown := grown

theorem carries_of_eq {s t : Session} (hj : t.journal.notices = s.journal.notices)
    (hp : t.phase = s.phase) : Carries s t :=
  carries_of_quiet hj fun link draft h => ⟨link, draft, hp ▸ h, rfl, rfl⟩

theorem carries_remark (s : Session) (r : Remark) : Carries s (s.remark r) := carries_of_eq rfl rfl

theorem carries_publish (s : Session) : Carries s s.publish := carries_of_eq rfl rfl

/-- A change that tells one thing. -/
theorem carries_of_told {s t : Session} {n : Notice}
    (hj : t.journal.notices = s.journal.notices ++ [n])
    (kept : ∀ m, n.kept? = some m → ∃ link draft, s.phase = .streaming link draft ∧ draft.id = m.id)
    (grown : ∀ link' draft', t.phase = .streaming link' draft' → ∃ link draft,
      s.phase = .streaming link draft ∧ link.signal = link'.signal ∧ draft.id = draft'.id) :
    Carries s t where
  told := by
    refine ⟨[n], hj, ?_⟩
    intro k hk
    rw [List.mem_singleton.mp hk]
    exact kept
  grown := grown

theorem Carries.trans {s t u : Session} (h : Carries s t) (h' : Carries t u) : Carries s u where
  told := by
    obtain ⟨ns, hns, hkept⟩ := h.told
    obtain ⟨ns', hns', hkept'⟩ := h'.told
    refine ⟨ns ++ ns', by rw [hns', hns, List.append_assoc], ?_⟩
    intro n hn m hm
    rcases List.mem_append.mp hn with hn | hn
    · exact hkept n hn m hm
    · obtain ⟨link', draft', hp', hid'⟩ := hkept' n hn m hm
      obtain ⟨link, draft, hp, -, hid⟩ := h.grown link' draft' hp'
      exact ⟨link, draft, hp, hid.trans hid'⟩
  grown := by
    intro link'' draft'' hp''
    obtain ⟨link', draft', hp', hs', hid'⟩ := h'.grown link'' draft'' hp''
    obtain ⟨link, draft, hp, hs, hid⟩ := h.grown link' draft' hp'
    exact ⟨link, draft, hp, hs.trans hs', hid.trans hid'⟩

theorem carries_abort (s : Session) : Carries s s.abort := by
  unfold abort
  split
  · exact carries_of_eq rfl rfl
  · exact carries_of_told (n := .turnCancelled none) rfl (by rintro m ⟨⟩) (by rintro _ _ ⟨⟩)
  · next link draft hp =>
    split
    · exact carries_of_told (n := .turnCancelled none) rfl (by rintro m ⟨⟩) (by rintro _ _ ⟨⟩)
    · refine carries_of_told (n := .turnCancelled (some _)) rfl ?_ (by rintro _ _ ⟨⟩)
      rintro m ⟨⟩
      exact ⟨link, draft, hp, rfl⟩

theorem carries_fail (s : Session) (m : Mishap) : Carries s (s.fail m) :=
  carries_of_told (n := .turnFailed m) rfl (by rintro m ⟨⟩) (by rintro _ _ ⟨⟩)

theorem carries_request (s : Session) (text : String) : Carries s (s.request text) := by
  have said : Carries s (s.say text) :=
    carries_of_told (n := .turnRequested _) rfl (by rintro m ⟨⟩) fun link draft h =>
      ⟨link, draft, h, rfl, rfl⟩
  unfold request openLink
  split
  · exact said.trans (carries_of_quiet rfl (by rintro _ _ ⟨⟩))
  · refine said.trans (Carries.trans ?_ (carries_fail _ _))
    exact carries_of_eq rfl rfl

theorem carries_fetched (s : Session) {link : Link} (hl : s.phase.link? = some link) :
    Carries s (s.fetched link) := by
  refine carries_of_quiet rfl ?_
  intro link' draft' h
  cases hp : s.phase with
  | streaming l draft =>
    cases (hp ▸ hl : (Phase.streaming l draft).link? = some link)
    simp only [fetched, hp, Phase.withLink, Phase.streaming.injEq] at h
    exact ⟨link, draft, rfl, h.1 ▸ rfl, h.2 ▸ rfl⟩
  | _ => simp [fetched, hp, Phase.withLink] at h

/-! ## The start of a reply -/

/-- From the one session to the other a reply starts, and nothing else is told. -/
def Starts (s t : Session) : Prop :=
  ∃ conversation, t.journal.notices = s.journal.notices ++ [.turnStarted conversation]

theorem Intake.carries {s t : Session} (h : Intake s t) : Carries s t ∨ Starts s t := by
  -- What is told inside a turn is not that a reply was kept, and the reply stays the one it was.
  have goes {t : Session} {n : Notice} (hj : t.journal.notices = s.journal.notices ++ [n])
      (hn : n.kept? = none) {link : Link} {draft draft' : Message}
      (hp : s.phase = .streaming link draft) (hp' : t.phase = .streaming link draft')
      (hid : draft'.id = draft.id) : Carries s t := by
    refine carries_of_told hj (fun m hm => ?_) fun l d hd => ?_
    · rw [hn] at hm
      cases hm
    · cases hp'.symm.trans hd
      exact ⟨link, draft, hp, rfl, hid.symm⟩
  cases h with
  | quiet _ _ _ => exact .inl (carries_of_eq rfl rfl)
  | abort => exact .inl (carries_abort s)
  | fail m _ _ => exact .inl (carries_fail s m)
  | failLink f _ => exact .inl ((carries_remark s .linkFailed).trans (carries_fail _ _))
  | start _ conversation _ => exact .inr ⟨conversation, rfl⟩
  | grow _ _ content hp => exact .inl (goes (n := .delta content) rfl rfl hp rfl rfl)
  | startTool _ _ _ _ hp => exact .inl (goes (n := .toolStarted _) rfl rfl hp hp rfl)
  | finishTool _ _ _ hp => exact .inl (goes (n := .toolFinished _) rfl rfl hp hp rfl)
  | complete link draft hp =>
    refine .inl (carries_of_told (n := .turnFinalized _) rfl ?_ (by rintro _ _ ⟨⟩))
    rintro m ⟨⟩
    exact ⟨link, draft, hp, rfl⟩

theorem carries_polled {s u : Session} (h : Polled s u) : Carries s u := by
  cases h with
  | unasked => exact carries_of_eq rfl rfl
  | asked link hl => exact carries_fetched s hl
  | ended link hl => exact (carries_fetched s hl).trans (carries_remark _ _)

theorem step_carries (s : Session) : Carries s s.step.2 ∨ Starts s s.step.2 := by
  rcases step_intake s with hs | ⟨u, t, hu, ht, hs⟩
  · rw [hs]
    exact .inl (carries_of_eq rfl rfl)
  · rw [hs]
    refine ht.carries.imp (fun hc => ?_) fun ⟨conversation, hc⟩ => ⟨conversation, ?_⟩
    · exact (carries_polled hu).trans (hc.trans (carries_publish t))
    · have hj : u.journal.notices = s.journal.notices := by cases hu <;> rfl
      exact hj ▸ hc

/-- A deed starts a reply, or it starts none. -/
theorem enact_carries (s : Session) (d : Deed) : Carries s (s.enact d) ∨ Starts s (s.enact d) := by
  cases d with
  | setClock now => exact .inl (carries_of_eq rfl rfl)
  | signalStop => exact .inl (carries_of_eq rfl rfl)
  | step => exact step_carries s
  | clear =>
    exact .inl (carries_of_told (n := .cleared) rfl (by rintro m ⟨⟩) (by rintro _ _ ⟨⟩))
  | stop =>
    left
    change Carries s s.stop
    unfold stop
    split
    · exact carries_of_eq rfl rfl
    · exact (carries_abort s).trans (carries_publish _)
  | send text =>
    left
    have hs : Carries s s.superseded := by
      unfold superseded
      split
      · exact carries_of_eq rfl rfl
      · exact (carries_remark s .superseded).trans (carries_abort _)
    exact hs.trans ((carries_request _ text).trans (carries_publish _))

/-! ## The growth of a reply -/

/-- The deeds end while a reply grows that started in them. From its start on its draft has had the identity,
  and its turn the signal. -/
def Grows (s : Session) (ds : List Deed) (signal : Nat) (id : String) : Prop :=
  ∃ first d rest, ds = first ++ d :: rest ∧
    Starts (s.enactAll first) (s.enactAll (first ++ [d])) ∧
    ∀ more, more <+: rest → ∃ feed draft,
      (s.enactAll (first ++ d :: more)).phase = .streaming ⟨signal, feed⟩ draft ∧ draft.id = id

theorem enactAll_concat (s : Session) (ds : List Deed) (d : Deed) :
    s.enactAll (ds ++ [d]) = (s.enactAll ds).enact d := enactAll_append s ds [d]

theorem grows_of_starts {s : Session} {ds : List Deed} {d : Deed} {link : Link} {draft : Message}
    (h : Starts (s.enactAll ds) (s.enactAll (ds ++ [d])))
    (hp : (s.enactAll (ds ++ [d])).phase = .streaming link draft) :
    s.Grows (ds ++ [d]) link.signal draft.id := by
  refine ⟨ds, d, [], rfl, h, ?_⟩
  intro more hm
  rw [List.prefix_nil.mp hm]
  exact ⟨link.feed, draft, hp, rfl⟩

theorem Grows.concat {s : Session} {ds : List Deed} {link : Link} {draft : Message}
    (h : s.Grows ds link.signal draft.id) {d : Deed}
    (hp : (s.enactAll (ds ++ [d])).phase = .streaming link draft) :
    s.Grows (ds ++ [d]) link.signal draft.id := by
  obtain ⟨first, e, rest, rfl, hs, hg⟩ := h
  refine ⟨first, e, rest ++ [d], by simp, hs, ?_⟩
  intro more hm
  rcases List.prefix_concat_iff.mp hm with rfl | hm
  · exact ⟨link.feed, draft, by simpa using hp, rfl⟩
  · exact hg more hm

/-- A reply that grows at the end of deeds started in them. -/
theorem grows_enactAll {s : Session} (hp : s.phase = .idle) (ds : List Deed) {link : Link}
    {draft : Message} (hd : (s.enactAll ds).phase = .streaming link draft) :
    s.Grows ds link.signal draft.id := by
  induction ds using List.reverseRecOn generalizing link draft with
  | nil =>
    have hd : s.phase = .streaming link draft := hd
    rw [hp] at hd
    cases hd
  | append_singleton ds d ih =>
    rcases enact_carries (s.enactAll ds) d with hc | hs
    · rw [← enactAll_concat] at hc
      obtain ⟨link', draft', hp', hsig, hid⟩ := hc.grown link draft hd
      have hg := ih hp'
      rw [hsig, hid] at hg
      exact hg.concat hd
    · rw [← enactAll_concat] at hs
      exact grows_of_starts hs hd

/-- Where replies that were kept come from: each was told to be kept by a deed that came while it grew, and
  what it has for an identity is what its draft had from the start. -/
def Named (s : Session) (ds : List Deed) : Prop :=
  ∀ before n after m, (s.enactAll ds).journal.notices = before ++ n :: after → n.kept? = some m →
    ∃ earlier d later signal, ds = earlier ++ d :: later ∧ s.Grows earlier signal m.id ∧
      (s.enactAll earlier).journal.notices <+: before ∧
      before ++ [n] <+: (s.enactAll (earlier ++ [d])).journal.notices

theorem Named.concat {s : Session} (hp : s.phase = .idle) {ds : List Deed} (h : s.Named ds)
    (d : Deed) : s.Named (ds ++ [d]) := by
  intro before n after m he hm
  have hgrown : ∃ ns, (s.enactAll (ds ++ [d])).journal.notices =
        (s.enactAll ds).journal.notices ++ ns ∧
      (n ∈ ns → ∃ link draft, (s.enactAll ds).phase = .streaming link draft ∧ draft.id = m.id) := by
    rw [enactAll_concat]
    rcases enact_carries (s.enactAll ds) d with hc | ⟨conversation, hs⟩
    · obtain ⟨ns, hj, hk⟩ := hc.told
      exact ⟨ns, hj, fun hn => hk n hn m hm⟩
    · refine ⟨_, hs, fun hn => ?_⟩
      rw [List.mem_singleton.mp hn] at hm
      cases hm
  obtain ⟨ns, hj, hn⟩ := hgrown
  -- The notice was told before, or it is one of those that the last deed told.
  rcases mem_of_append_eq (hj.symm.trans he) with ⟨rest, hr⟩ | ⟨hb, hmem⟩
  · obtain ⟨earlier, e, later, signal, rfl, hrest⟩ := h before n rest m hr hm
    exact ⟨earlier, e, later ++ [d], signal, by simp, hrest⟩
  · obtain ⟨link, draft, hd, hid⟩ := hn hmem
    refine ⟨ds, d, [], link.signal, rfl, hid ▸ grows_enactAll hp ds hd, hb, after, ?_⟩
    rw [he, List.append_assoc]
    rfl

theorem named_enactAll {s : Session} (hp : s.phase = .idle) (hj : s.journal.notices = [])
    (ds : List Deed) : s.Named ds := by
  induction ds using List.reverseRecOn with
  | nil =>
    intro before n after m he
    have he : s.journal.notices = before ++ n :: after := he
    simp [hj] at he
  | append_singleton ds d ih => exact ih.concat hp d

/-- A reply in the history was told to be kept. -/
theorem Shaped.exists_kept {s : Session} (h : s.Shaped) {m : Message} (hm : m ∈ s.history)
    (hr : m.role = .assistant) : ∃ n ∈ s.journal.notices, n.kept? = some m := by
  rw [h.history] at hm
  obtain ⟨x, hx, hm⟩ := List.mem_flatMap.mp hm
  rcases List.mem_cons.mp hm with rfl | hm
  · exact absurd ((h.cast x hx).question.symm.trans hr) (by simp)
  · exact Exchange.exists_kept hx (Option.mem_toList.mp hm)

/-- **Identities stay apart, and replies keep theirs.** If no identity is given out twice, no two of those at hand
  are the same, in whatever collection they stand. Every reply that was told to be kept has the identity that
  its draft got at the start of its turn, and every reply in the history is one of these. -/
theorem named_course (matching : Matching) (transport : Transport) (mint : Mint)
    (ops : List (Int × Operation)) :
    let s₀ := create matching transport mint
    let s := s₀.course ops
    (s.mint.given.Nodup → s.atHand.Nodup) ∧ s₀.Named (s₀.courseDeeds ops) ∧
      ∀ m ∈ s.history, m.role = .assistant → ∃ n ∈ s.journal.notices, n.kept? = some m := by
  intro s₀ s
  have shaped : s.Coherent ∧ s.Shaped := shaped_of_course matching transport mint ops
  have minted : s.Minted :=
    invariant_minted.course ops (s := s₀) (minted_of_idle rfl (List.nil_sublist _))
  refine ⟨?_, named_enactAll rfl rfl _, fun m hm hr => shaped.2.exists_kept hm hr⟩
  intro hn
  rw [shaped.1.atHand_eq]
  exact hn.sublist minted

/-- A reply with a tool that ends its turn, and one that is cut short by a stop while its tool runs. -/
theorem named_course_of_stop :
    let cut : Message :=
      ⟨"r2", .assistant, "We", 1800, false, some [⟨"t2", "search", [], .running, none⟩]⟩
    let transport : Transport := ⟨[
      .accepted (.ofDeliveries [.event (.start "c1"), .event (.toolStart "search" []),
        .event (.delta "Hello"), .event (.toolEnd "search" true none), .event .stop] false),
      .accepted (.ofDeliveries [.event (.start "c1"), .event (.toolStart "search" []),
        .event (.delta "We")] true)],
      .refused "no route"⟩
    let s₀ := create .oldest transport
      ⟨fun n => ["u1", "r1", "t1", "u2", "r2", "t2"][n]?.getD "", 0, 0⟩
    let ops := [(1700, .submit "Hi"), (1800, .submit "Well?"), (1900, .stop)]
    let s := s₀.course ops
    s.mint.given.Nodup ∧ s.atHand = ["u1", "r1", "t1", "u2", "r2", "t2"] ∧ s.atHand.Nodup ∧
      (s.journal.notices.filterMap Notice.kept?).map Message.id = ["r1", "r2"] ∧
      s₀.Named (s₀.courseDeeds ops) ∧
      (cut ∈ s.history ∧ cut.role = .assistant ∧ ∃ n ∈ s.journal.notices, n.kept? = some cut) :=
  ⟨by decide, by decide, (named_course .oldest _ _ _).1 (by decide), by decide,
    (named_course .oldest _ _ _).2.1, by decide, rfl,
    (named_course .oldest _ _ _).2.2 _ (by decide) rfl⟩

end Session

end Converse
