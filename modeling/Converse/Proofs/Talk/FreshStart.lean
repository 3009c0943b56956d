import Converse.Proofs.Talk.Likeness
import Converse.Proofs.Talk.Ownership

/-
  Clearing as a fresh start.

  A session that was cleared goes on like a new one with the links that are left. The two are `Twin`s: they
  are alike, and their links are the same; and every deed keeps them so, whatever it is. `fresh_start_course`
  is the result: nothing of what was done before the clearing can be told from what is done after it.
-/

namespace Converse

/-- Distinct identities can be renamed to any others. -/
theorem Renaming.exists_of_injective {label : Nat → String} (distinct : Function.Injective label)
    (label' : Nat → String) (time : Int → Int) :
    ∃ w : Renaming, w.time = time ∧ ∀ n, w.id (label n) = label' n :=
  ⟨⟨Function.extend label label' fun name => name, time⟩, rfl,
    distinct.extend_apply label' fun name => name⟩

theorem Switch.hasFired_initial (i : Nat) : initial.hasFired i = false := by
  cases i <;> rfl

namespace Session

/-- Sessions that are alike and have the same links, under way and to be opened. -/
structure Twin (w : Renaming) (earlier : View) (s t : Session) : Prop where
  alike : Alike w earlier s t
  transport : t.transport = s.transport
  feed : ∀ l l', s.phase.link? = some l → t.phase.link? = some l' → l'.feed = l.feed

namespace Twin

variable {w : Renaming} {earlier : View} {s t : Session}

theorem answered (h : Twin w earlier s t) (d : Deed) : Answered s t d := by
  cases d with
  | send text =>
    unfold Answered
    rw [h.transport]
  | step =>
    intro l l' hl hl' _
    rw [h.feed l l' hl hl']
    exact ⟨rfl, rfl⟩
  | _ => exact True.intro

theorem send (h : Twin w earlier s t) (text : String) :
    Twin w earlier (s.send text) (t.send text) where
  alike := h.alike.enact (.send text) (h.answered _)
  transport := by rw [(supply_send s text).1, (supply_send t text).1, h.transport]
  feed := by
    rw [(supply_send s text).2.2, (supply_send t text).2.2, h.transport]
    intro l l' hl hl'
    cases hx : s.transport.next.1 with
    | accepted feed =>
      rw [hx] at hl hl'
      cases hl
      cases hl'
      rfl
    | refused reason =>
      rw [hx] at hl
      cases hl

theorem step (h : Twin w earlier s t) : Twin w earlier s.step.2 t.step.2 where
  alike := h.alike.enact .step (h.answered _)
  transport := by rw [(supply_step s).1, (supply_step t).1, h.transport]
  feed := by
    intro l l' hl hl'
    obtain ⟨k, hk, -, rfl⟩ := link?_step hl
    obtain ⟨k', hk', -, rfl⟩ := link?_step hl'
    change k'.feed.fetch.2.1 = k.feed.fetch.2.1
    rw [h.feed k k' hk hk']

theorem quiet (h : Twin w earlier s t) {d : Deed} (hd : d.isQuiet = true) :
    Twin w earlier (s.enact d) (t.enact (d.retimed w.time)) := by
  have hd' : (d.retimed w.time).isQuiet = true := by rwa [Deed.isQuiet_retimed]
  obtain ⟨ht, -, hl⟩ := supply_quiet (s := s) hd
  obtain ⟨ht', -, hl'⟩ := supply_quiet (s := t) hd'
  exact
    { alike := h.alike.enact d (h.answered d)
      transport := by rw [ht, ht', h.transport]
      feed := fun l l' hs hs' => h.feed l l' (hl l hs) (hl' l' hs') }

/-- Nothing that is done to both can tell twins apart. -/
theorem enact (h : Twin w earlier s t) (d : Deed) :
    Twin w earlier (s.enact d) (t.enact (d.retimed w.time)) := by
  cases d with
  | send text => exact h.send text
  | step => exact h.step
  | _ => exact h.quiet rfl

end Twin

theorem lockstep_twin (w : Renaming) (earlier : View) :
    Lockstep w.time fun _ => Twin w earlier where
  enact d _ _ _ h := h.enact d
  progress _ _ _ h := (h.alike.step (h.answered .step)).1
  again _ _ _ h := h.alike.again

/-! ## The session after a clearing -/

/-- The rule by which tools are matched never changes. -/
theorem invariant_matching (matching : Matching) :
    Invariant fun s => s.tools.matching = matching where
  remark _ _ h := h
  publish _ h := h
  countDropped _ h := h
  abort s h := by
    unfold abort
    split
    · exact h
    · exact h
    · split <;> exact h
  fail _ _ _ h := h
  complete _ _ _ _ h := h
  startReply _ _ _ _ h := h
  grow _ _ _ _ _ h := h
  startTool _ _ _ _ _ _ h := h
  finishTool s _ _ _ _ _ _ h := by
    unfold finishTool
    split
    · next r hr =>
      obtain ⟨_, _, _, _, _, rfl⟩ := Toolbox.finish_eq_some hr
      exact h
    · split <;> exact h
  setClock _ _ h := h
  fetched _ _ _ h := h
  request s text _ h := by
    unfold request openLink
    split <;> exact h
  clear _ h := h
  signalStop _ h := h

/-- The clock shows in what is done, not before. -/
theorem transcript_setClock (s : Session) (now : Int) (ops : List (Int × Operation)) :
    (s.setClock now).transcript ops = s.transcript ops := by
  cases ops <;> rfl

/-- A session that was cleared is a twin of a new one. -/
theorem Owned.twin_clear {script : Transport} {hits : List Nat} {s : Session}
    (owned : Owned script hits s) {w : Renaming} {label : Nat → String}
    (renames : ∀ n, w.id (label n) = s.mint.label (s.mint.made + n)) (now : Int) :
    Twin w s.clear.view (create s.tools.matching s.transport ⟨label, now, 0⟩)
      (s.clear.setClock (w.time now)) where
  transport := rfl
  feed _ _ hl := by cases hl
  alike :=
    have cleared : Owned script (hits ++ []) s.clear := owned.enact .clear
    have hsize : s.clear.view.cancelled.length = s.clear.journal.questions.length := by
      change s.clear.switch.fired.tail.length = _
      rw [List.length_tail, cleared.size]
      rfl
    { conversation := rfl
      history := rfl
      matching := rfl
      runs := rfl
      phase := .idle
      mishap := rfl
      dropped := rfl
      installed := by
        rw [hsize]
        exact cleared.installed
      size := by
        rw [hsize]
        exact cleared.size
      nonempty := Nat.one_pos
      fired := by
        intro i hi
        have hnew : s.clear.switch.fired.length ≤ s.clear.view.cancelled.length + i := by
          rw [hsize, cleared.size]
          omega
        exact (Switch.hasFired_of_le hnew).trans (Switch.hasFired_initial i).symm
      running := rfl
      label := by
        intro n
        change s.mint.label (s.mint.made + n) = w.id (label (0 + n))
        rw [Nat.zero_add, renames]
      now := rfl
      notices := (List.append_nil _).symm
      questions := (List.append_nil _).symm
      published := (List.append_nil _).symm }

/-- **Clearing is a fresh start.** After any reachable session was cleared, every operation does what it does
  in a new session with the links that are left, which has identities and times of its own: it answers the
  same, and all that can be seen goes on from the clearing as it does in the new session from nothing, up to
  the renaming that takes the identities of the one to those of the other in order. There is such a renaming,
  whatever becomes of the times, as long as the new session gives no identity out twice. -/
theorem fresh_start_course (matching : Matching) (transport : Transport) (mint : Mint)
    (ops : List (Int × Operation)) (label : Nat → String) (now : Int) :
    let s := (create matching transport mint).course ops
    let new := create matching s.transport ⟨label, now, 0⟩
    (∀ w : Renaming, (∀ n, w.id (label n) = s.mint.label (s.mint.made + n)) →
      View.Continues w s.clear.view new.view s.clear.view ∧
      ∀ later, List.Forall₂ (fun a b => b.1 = a.1 ∧ View.Continues w s.clear.view a.2 b.2)
        (new.transcript later) (s.clear.transcript (later.map fun op => (w.time op.1, op.2)))) ∧
    (Function.Injective label → ∀ time, ∃ w : Renaming, w.time = time ∧
      ∀ n, w.id (label n) = s.mint.label (s.mint.made + n)) := by
  intro s new
  refine ⟨?_, fun distinct time => Renaming.exists_of_injective distinct _ time⟩
  intro w renames
  have hm : s.tools.matching = matching := (invariant_matching matching).course ops rfl
  have twin : Twin w s.clear.view new (s.clear.setClock (w.time now)) := by
    have h := (owned_of_course matching transport mint ops).twin_clear renames now
    rw [hm] at h
    exact h
  refine ⟨twin.alike.view, ?_⟩
  intro later
  rw [← transcript_setClock s.clear (w.time now)]
  exact (lockstep_twin w s.clear.view).transcript (fun _ _ _ h => h.alike.view) later twin

/-- A turn with a running tool, cleared; the next request is refused, tried again, and answered. -/
theorem fresh_start_course_of_refused :
    let name (n : Nat) : String := .ofList (List.replicate n 'a')
    let first : Opening := .accepted (.ofDeliveries [.event (.start "c1"), .event (.delta "Hel"),
      .event (.toolStart "search" []), .event .stop] false)
    let left := [.refused "busy",
      .accepted (.ofDeliveries [.event (.start "c2"), .event (.delta "Hello"), .event .stop] false)]
    let s := (create .strict ⟨first :: left, .refused "no route"⟩ ⟨name, 0, 0⟩).course
      [(1700, .send "Hi"), (1700, .step 3)]
    let new := create .strict ⟨left, .refused "no route"⟩ ⟨name, 0, 0⟩
    let later := [(1800, .submit "Well?"), (1900, .retry), (1900, .run)]
    s.phase ≠ .idle ∧ (s.clear.transcript later).map Prod.fst = [.done, .flag true, .done] ∧
    ∃ w : Renaming, w.id (name 1) = "aaaa" ∧
      List.Forall₂ (fun a b => b.1 = a.1 ∧ View.Continues w s.clear.view a.2 b.2)
        (new.transcript later) (s.clear.transcript later) := by
  intro name first left s new later
  have distinct : Function.Injective name := by
    intro m n h
    simpa [name] using congrArg String.length h
  have h := fresh_start_course .strict ⟨first :: left, .refused "no route"⟩ ⟨name, 0, 0⟩
    [(1700, .send "Hi"), (1700, .step 3)] name 0
  obtain ⟨w, ht, hw⟩ := h.2 distinct id
  have hlater := (h.1 w hw).2 later
  rw [ht] at hlater
  exact ⟨by decide, by decide, w, hw 1, hlater⟩

end Session

end Converse
