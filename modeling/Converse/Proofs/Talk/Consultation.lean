import Converse.Proofs.Talk.Likeness
import Converse.Proofs.Talk.Ownership

/-
  What a session ever asks its links for.

  A step asks the link of the turn under way, unless the signal of the turn has fired; `polls` lists the
  requests whose links are asked while deeds are done. `consulted_course` is the result. A link is not asked
  any more once its turn is over, and the one under way has come as far as it was asked (`Drawn`). So a
  session depends on its links only as far as it asks them: with links that give the same answers that far,
  and whatever they like from there on, all that can be seen of it is the same (`Abreast`).
-/

namespace Converse

namespace Feed

/-- What the first fetches give, each with whether the stop signal fires meanwhile. -/
def answers : Nat → Feed → List (Fetched × Bool)
  | 0, _ => []
  | n + 1, f => (f.fetch.1, f.fetch.2.2) :: answers n f.fetch.2.1

/-- What is left after the first fetches. -/
def after : Nat → Feed → Feed
  | 0, f => f
  | n + 1, f => after n f.fetch.2.1

theorem after_succ (n : Nat) (f : Feed) : after (n + 1) f = (after n f).fetch.2.1 := by
  induction n generalizing f with
  | zero => rfl
  | succ n ih => exact ih f.fetch.2.1

theorem answers_succ_inj {n : Nat} {f g : Feed} (h : answers (n + 1) g = answers (n + 1) f) :
    g.fetch.1 = f.fetch.1 ∧ g.fetch.2.2 = f.fetch.2.2 ∧
      answers n g.fetch.2.1 = answers n f.fetch.2.1 := by
  obtain ⟨hx, ht⟩ := List.cons.inj h
  obtain ⟨h1, h2⟩ := Prod.mk.inj hx
  exact ⟨h1, h2, ht⟩

end Feed

/-- Whether two openings come to the same, as far as a number of fetches can tell. -/
def Opening.AgreesFor (n : Nat) : Opening → Opening → Prop
  | .refused reason, .refused reason' => reason' = reason
  | .accepted feed, .accepted feed' => feed'.answers n = feed.answers n
  | _, _ => False

instance (n : Nat) (o o' : Opening) : Decidable (o.AgreesFor n o') :=
  match o, o' with
  | .refused reason, .refused reason' => inferInstanceAs (Decidable (reason' = reason))
  | .accepted feed, .accepted feed' =>
    inferInstanceAs (Decidable (feed'.answers n = feed.answers n))
  | .refused _, .accepted _ => inferInstanceAs (Decidable False)
  | .accepted _, .refused _ => inferInstanceAs (Decidable False)

theorem Opening.AgreesFor.refusal?_eq {n : Nat} {o o' : Opening} (h : o.AgreesFor n o') :
    o'.refusal? = o.refusal? := by
  cases o with
  | refused reason =>
    cases o' with
    | refused reason' => exact congrArg some h
    | accepted feed' => exact h.elim
  | accepted feed =>
    cases o' with
    | refused reason' => exact h.elim
    | accepted feed' => rfl

/-! ## The renaming that changes nothing -/

namespace Renaming

/-- Every identity and every time stays as it is. -/
def same : Renaming := ⟨fun name => name, fun now => now⟩

theorem run_same : same.run = fun t => t := rfl

theorem message_same : same.message = fun m => m := by
  funext m
  change { m with tools := m.tools.map (List.map same.run) } = m
  simp [run_same]

theorem notice_same : same.notice = fun n => n := by
  funext n
  cases n <;> simp [notice, message_same, run_same]

theorem snapshot_same : same.snapshot = fun p => p := by
  funext p
  simp [snapshot, message_same, run_same]

end Renaming

/-- What is seen of a session of which nothing was seen yet. -/
def View.empty : View := ⟨.initial, [], [], [], false, 0, []⟩

theorem View.Continues.eq_of_same {v u : View} (h : View.Continues .same .empty v u) : u = v := by
  obtain ⟨h1, h2, h3, h4, h5, h6, h7⟩ := h
  cases u
  cases v
  simp_all [View.empty, Renaming.snapshot_same, Renaming.notice_same]

namespace Session

/-! ## Which links are asked -/

/-- The request whose link a deed asks, by the number of its signal. -/
def poll (s : Session) : Deed → Option Nat
  | .step => s.phase.signal?.filter fun signal => !s.switch.hasFired signal
  | _ => none

/-- The requests whose links are asked by deeds in order, once for every time. -/
def polls (s : Session) : List Deed → List Nat
  | [] => []
  | d :: ds => (s.poll d).toList ++ (s.enact d).polls ds

theorem signal?_of_link? {s : Session} {l : Link} (hl : s.phase.link? = some l) :
    s.phase.signal? = some l.signal := by
  simp [Phase.signal?, hl]

theorem poll_step {s : Session} {l : Link} (hl : s.phase.link? = some l)
    (hf : s.switch.hasFired l.signal = false) : s.poll .step = some l.signal := by
  simp [poll, signal?_of_link? hl, hf]

/-- Only the link of the turn under way is asked. -/
theorem signal?_of_poll {s : Session} {d : Deed} {k : Nat} (h : s.poll d = some k) :
    s.phase.signal? = some k := by
  cases d with
  | step => exact (Option.filter_eq_some_iff.mp h).1
  | _ => cases h

theorem poll_of_isQuiet {d : Deed} (hd : d.isQuiet = true) (s : Session) : s.poll d = none := by
  cases d with
  | step => cases hd
  | _ => rfl

theorem length_questions_enact (s : Session) (d : Deed) :
    s.journal.questions.length ≤ (s.enact d).journal.questions.length := by
  cases d with
  | send text =>
    change _ ≤ (s.send text).journal.questions.length
    rw [(supply_send s text).2.1]
    exact Nat.le_succ _
  | step => exact Nat.le_of_eq (congrArg _ (supply_step s).2.symm)
  | _ => exact Nat.le_of_eq (congrArg _ (supply_quiet rfl).2.1.symm)

theorem length_questions_enactAll (s : Session) (ds : List Deed) :
    s.journal.questions.length ≤ (s.enactAll ds).journal.questions.length := by
  induction ds generalizing s with
  | nil => exact Nat.le_refl _
  | cons d ds ih => exact Nat.le_trans (length_questions_enact s d) (ih _)

variable {script : Transport} {hits : List Nat} {s t : Session}

/-- The turn under way after a deed was under way before it, or its request is the newest. -/
theorem Owned.signal?_enact (h : Owned script hits s) {d : Deed} {k : Nat}
    (hk : (s.enact d).phase.signal? = some k) :
    s.phase.signal? = some k ∨ s.journal.questions.length < k := by
  obtain ⟨l, hl, rfl⟩ := Option.map_eq_some_iff.mp hk
  cases d with
  | send text =>
    have hi := (h.enact (.send text)).signal_eq hl
    have hq := (h.enact (.send text)).installed
    have hlen : (s.enact (.send text)).journal.questions.length
        = s.journal.questions.length + 1 := (supply_send s text).2.1
    right
    omega
  | step =>
    obtain ⟨l', hl', -, rfl⟩ := link?_step hl
    exact .inl (signal?_of_link? hl' : s.phase.signal? = some l'.signal)
  | _ => exact .inl (signal?_of_link? ((supply_quiet rfl).2.2 l hl))

/-- The link of a turn that is over is not asked again. -/
theorem Owned.not_mem_polls (h : Owned script hits s) {k : Nat}
    (hk : k ≤ s.journal.questions.length) (hs : s.phase.signal? ≠ some k) (ds : List Deed) :
    k ∉ s.polls ds := by
  induction ds generalizing s hits with
  | nil => exact List.not_mem_nil
  | cons d ds ih =>
    intro hm
    rcases List.mem_append.mp hm with hm | hm
    · exact hs (signal?_of_poll (Option.mem_toList.mp hm))
    · refine ih (h.enact d) (Nat.le_trans hk (length_questions_enact s d)) ?_ hm
      intro hd
      rcases h.signal?_enact hd with hd | hd
      · exact hs hd
      · omega

/-! ## How far a link has come -/

/-- The links have come as far as they were asked in the past. -/
structure Drawn (script : Transport) (asked : List Nat) (s : Session) : Prop where
  past : ∀ k ∈ asked, k ≤ s.journal.questions.length
  link : ∀ l, s.phase.link? = some l → ∃ k feed, l.signal = k + 1 ∧
    s.journal.questions.length = k + 1 ∧ script.opening k = .accepted feed ∧
    l.feed = feed.after (asked.count (k + 1))

theorem Drawn.send {asked : List Nat} (h : Drawn script asked s) (owned : Owned script hits s)
    (text : String) : Drawn script asked (s.send text) := by
  obtain ⟨-, hq, hp⟩ := supply_send s text
  constructor
  · intro k hk
    have := h.past k hk
    omega
  · intro l hl
    rw [hp] at hl
    cases hx : s.transport.next.1 with
    | refused reason =>
      rw [hx] at hl
      cases hl
    | accepted feed =>
      rw [hx] at hl
      cases hl
      refine ⟨s.journal.questions.length, feed, owned.size, hq, ?_, ?_⟩
      · rw [← hx, ← Transport.opening_zero, owned.upcoming 0, Nat.add_zero]
      · have hnew : s.journal.questions.length + 1 ∉ asked := by
          intro hm
          have := h.past _ hm
          omega
        rw [List.count_eq_zero.mpr hnew]
        rfl

theorem Drawn.step {asked : List Nat} (h : Drawn script asked s) (owned : Owned script hits s) :
    Drawn script (asked ++ (s.poll .step).toList) s.step.2 := by
  have hq : s.step.2.journal.questions = s.journal.questions := (supply_step s).2
  constructor
  · rw [hq]
    intro k hk
    rcases List.mem_append.mp hk with hk | hk
    · exact h.past k hk
    · obtain ⟨n, hn, hlen, -⟩ := owned.signal k (signal?_of_poll (Option.mem_toList.mp hk))
      omega
  · rw [hq]
    intro l hl
    obtain ⟨l, hl0, hf, rfl⟩ := link?_step hl
    obtain ⟨k, feed, hk, hlen, ho, hfeed⟩ := h.link l hl0
    refine ⟨k, feed, hk, hlen, ho, ?_⟩
    rw [poll_step hl0 hf, hk, List.count_append]
    change l.feed.fetch.2.1 = _
    rw [hfeed, ← Feed.after_succ]
    simp

theorem Drawn.quiet {asked : List Nat} (h : Drawn script asked s) {d : Deed}
    (hd : d.isQuiet = true) : Drawn script asked (s.enact d) := by
  obtain ⟨-, hq, hl⟩ := supply_quiet (s := s) hd
  constructor
  · rw [hq]
    exact h.past
  · rw [hq]
    exact fun l hs => h.link l (hl l hs)

theorem Drawn.enact {asked : List Nat} (h : Drawn script asked s) (owned : Owned script hits s)
    (d : Deed) : Drawn script (asked ++ (s.poll d).toList) (s.enact d) := by
  have unasked (hn : s.poll d = none) (hs : Drawn script asked (s.enact d)) :
      Drawn script (asked ++ (s.poll d).toList) (s.enact d) := by
    rwa [hn, Option.toList_none, List.append_nil]
  cases d with
  | send text => exact unasked rfl (h.send owned text)
  | step => exact h.step owned
  | _ => exact unasked rfl (h.quiet rfl)

theorem Drawn.enactAll {asked : List Nat} (h : Drawn script asked s) (owned : Owned script hits s)
    (ds : List Deed) : Drawn script (asked ++ s.polls ds) (s.enactAll ds) := by
  induction ds generalizing s hits asked with
  | nil =>
    rw [polls, List.append_nil]
    exact h
  | cons d ds ih =>
    have := ih (h.enact owned d) (owned.enact d)
    rw [List.append_assoc] at this
    exact this

/-! ## Two sessions whose links agree as far as they are asked -/

/-- Sessions that are alike in everything that can be seen, with links that agree as far as the deeds to come
  ask those of the first. -/
structure Abreast (ds : List Deed) (s t : Session) : Prop where
  alike : Alike .same .empty s t
  owned : ∃ script hits, Owned script hits s
  link : ∀ l l', s.phase.link? = some l → t.phase.link? = some l' →
    l'.feed.answers ((s.polls ds).count l.signal) = l.feed.answers ((s.polls ds).count l.signal)
  openings : ∀ n, s.journal.questions.length + n < (s.enactAll ds).journal.questions.length →
    (s.transport.opening n).AgreesFor ((s.polls ds).count (s.journal.questions.length + n + 1))
      (t.transport.opening n)

namespace Abreast

variable {d : Deed} {ds : List Deed}

/-- The opening that a message takes. -/
theorem opening {text : String} (h : Abreast (.send text :: ds) s t) :
    s.transport.next.1.AgreesFor
      (((s.send text).polls ds).count (s.journal.questions.length + 1)) t.transport.next.1 := by
  have hlen := length_questions_enactAll (s.send text) ds
  rw [(supply_send s text).2.1] at hlen
  have ho := h.openings 0 hlen
  rwa [Transport.opening_zero, Transport.opening_zero] at ho

/-- What the link of the turn under way answers to a step. -/
theorem asked (h : Abreast (.step :: ds) s t) {l l' : Link} (hl : s.phase.link? = some l)
    (hl' : t.phase.link? = some l') (hf : s.switch.hasFired l.signal = false) :
    l'.feed.fetch.1 = l.feed.fetch.1 ∧ l'.feed.fetch.2.2 = l.feed.fetch.2.2 ∧
      l'.feed.fetch.2.1.answers ((s.step.2.polls ds).count l.signal) =
        l.feed.fetch.2.1.answers ((s.step.2.polls ds).count l.signal) := by
  have ha := h.link l l' hl hl'
  have hc : (s.polls (.step :: ds)).count l.signal = (s.step.2.polls ds).count l.signal + 1 := by
    rw [polls, poll_step hl hf]
    exact List.count_cons_self
  rw [hc] at ha
  exact Feed.answers_succ_inj ha

theorem answered (h : Abreast (d :: ds) s t) : Answered s t d := by
  cases d with
  | send text => exact h.opening.refusal?_eq
  | step =>
    intro l l' hl hl' hf
    obtain ⟨hx, hi, -⟩ := h.asked hl hl' hf
    exact ⟨hx, hi⟩
  | _ => exact True.intro

theorem send {text : String} (h : Abreast (.send text :: ds) s t) :
    Abreast ds (s.send text) (t.send text) := by
  obtain ⟨ht, hq, hp⟩ := supply_send s text
  obtain ⟨ht', -, hp'⟩ := supply_send t text
  obtain ⟨script, hits, owned⟩ := h.owned
  constructor
  · exact h.alike.enact (.send text) h.answered
  · exact ⟨script, _, owned.enact (.send text)⟩
  · intro l l' hl hl'
    have ho := h.opening
    rw [hp] at hl
    rw [hp'] at hl'
    cases hx : s.transport.next.1 with
    | refused reason =>
      rw [hx] at hl
      cases hl
    | accepted feed =>
      cases hy : t.transport.next.1 with
      | refused reason =>
        rw [hy] at hl'
        cases hl'
      | accepted feed' =>
        rw [hx] at hl ho
        rw [hy] at hl' ho
        cases hl
        cases hl'
        rw [owned.size]
        exact ho
  · intro n hn
    rw [hq] at hn ⊢
    have hnext : s.journal.questions.length + 1 + n = s.journal.questions.length + (n + 1) := by
      omega
    rw [hnext] at hn ⊢
    have ho := h.openings (n + 1) hn
    rw [Transport.opening_succ, Transport.opening_succ] at ho
    rw [ht, ht']
    exact ho

theorem step (h : Abreast (.step :: ds) s t) : Abreast ds s.step.2 t.step.2 := by
  obtain ⟨ht, hq⟩ := supply_step s
  obtain ⟨script, hits, owned⟩ := h.owned
  constructor
  · exact h.alike.enact .step h.answered
  · exact ⟨script, _, owned.enact .step⟩
  · intro l l' hl hl'
    obtain ⟨k, hk, hf, rfl⟩ := link?_step hl
    obtain ⟨k', hk', -, rfl⟩ := link?_step hl'
    exact (h.asked hk hk' hf).2.2
  · intro n hn
    rw [hq] at hn ⊢
    have ho := h.openings n hn
    -- The link asked belongs to a request that was made already.
    have hc : (s.poll .step).toList.count (s.journal.questions.length + n + 1) = 0 := by
      apply List.count_eq_zero.mpr
      intro hm
      obtain ⟨k, hk, hlen, -⟩ := owned.signal _ (signal?_of_poll (Option.mem_toList.mp hm))
      omega
    rw [polls, List.count_append, hc, Nat.zero_add] at ho
    rw [ht, (supply_step t).1]
    exact ho

theorem quiet (h : Abreast (d :: ds) s t) (hd : d.isQuiet = true) :
    Abreast ds (s.enact d) (t.enact (d.retimed id)) := by
  have hd' : (d.retimed id).isQuiet = true := by rwa [Deed.isQuiet_retimed]
  obtain ⟨ht, hq, hl⟩ := supply_quiet (s := s) hd
  obtain ⟨ht', -, hl'⟩ := supply_quiet (s := t) hd'
  obtain ⟨script, hits, owned⟩ := h.owned
  have hpolls : s.polls (d :: ds) = (s.enact d).polls ds := by
    rw [polls, poll_of_isQuiet hd]
    rfl
  have hlink := h.link
  have hopen := h.openings
  rw [hpolls] at hlink hopen
  constructor
  · exact h.alike.enact d h.answered
  · exact ⟨script, _, owned.enact d⟩
  · exact fun l l' hs hs' => hlink l l' (hl l hs) (hl' l' hs')
  · rw [ht, ht', hq]
    exact hopen

theorem enact (h : Abreast (d :: ds) s t) : Abreast ds (s.enact d) (t.enact (d.retimed id)) := by
  cases d with
  | send text => exact h.send
  | step => exact h.step
  | _ => exact h.quiet rfl

end Abreast

theorem lockstep_abreast : Lockstep id Abreast where
  enact _ _ _ _ h := h.enact
  progress _ _ _ h := (h.alike.step h.answered).1
  again _ _ _ h := h.alike.again

theorem alike_create (matching : Matching) (transport transport' : Transport) (mint : Mint) :
    Alike .same .empty (create matching transport mint) (create matching transport' mint) where
  conversation := rfl
  history := rfl
  matching := rfl
  runs := rfl
  phase := .idle
  mishap := rfl
  dropped := rfl
  installed := rfl
  size := rfl
  nonempty := Nat.one_pos
  fired i _ := by
    change Switch.initial.hasFired (0 + i) = Switch.initial.hasFired i
    rw [Nat.zero_add]
  running := rfl
  label _ := rfl
  now := rfl
  notices := rfl
  questions := rfl
  published := rfl

/-- **A link is asked only by its own turn.** Whatever was done to a session, the link of a turn that is over
  is not asked by anything that is done later, and the link of the turn under way is the one that was opened
  for the newest request, as far as it was asked. Therefore other links, which give the same answers as far
  as the session asks them and are arbitrary from there on, make no difference: every operation answers the
  same, and the same is seen after it. -/
theorem consulted_course (matching : Matching) (transport : Transport) (mint : Mint) :
    let start := create matching transport mint
    (∀ before later : List Deed, let s := start.enactAll before
      (∀ k ≤ s.journal.questions.length, s.phase.signal? ≠ some k → k ∉ s.polls later) ∧
      ∀ link, s.phase.link? = some link → ∃ k feed, link.signal = k + 1 ∧
        s.journal.questions.length = k + 1 ∧ transport.opening k = .accepted feed ∧
        link.feed = feed.after ((start.polls before).count (k + 1))) ∧
    ∀ ops (other : Transport),
      (∀ k < (start.course ops).journal.questions.length,
        (transport.opening k).AgreesFor ((start.polls (start.courseDeeds ops)).count (k + 1))
          (other.opening k)) →
      (create matching other mint).transcript ops = start.transcript ops := by
  intro start
  have owned := owned_create matching transport mint
  constructor
  · intro before later s
    have drawn : Drawn transport [] start := ⟨nofun, nofun⟩
    have h := drawn.enactAll owned before
    rw [List.nil_append] at h
    exact ⟨fun k hk hs => (owned.enactAll before).not_mem_polls hk hs later, h.link⟩
  · intro ops other agrees
    have h : Abreast (start.courseDeeds ops) start (create matching other mint) :=
      { alike := alike_create matching transport other mint
        owned := ⟨_, _, owned⟩
        link := nofun
        openings := by
          intro n hn
          rw [← course_eq_enactAll] at hn
          change 0 + n < (start.course ops).journal.questions.length at hn
          change (transport.opening n).AgreesFor
            ((start.polls (start.courseDeeds ops)).count (0 + n + 1)) (other.opening n)
          rw [Nat.zero_add] at hn ⊢
          exact agrees n hn }
    have hf := lockstep_abreast.transcript
      (V := fun v u => u = v) (fun _ _ _ h => h.alike.view.eq_of_same) ops h
    have hops : (ops.map fun op => (id op.1, op.2)) = ops := List.map_id ops
    have heq : List.Forall₂ Eq (start.transcript ops)
        ((create matching other mint).transcript ops) := by
      rw [hops] at hf
      exact hf.imp fun a b hab => Prod.ext hab.1.symm hab.2.symm
    rw [List.forall₂_eq_eq_eq] at heq
    exact heq.symm

/-- Another end of a link whose reply failed, more on a link that was stopped, and more links to open. -/
theorem consulted_course_of_failure :
    let reply : List Feed.Item := [.deliver (.event (.start "c1")), .deliver (.event (.delta "Hel")),
      .deliver (.closed (.failed (.request "reset")))]
    let one : Transport := ⟨[.accepted ⟨reply, false⟩,
      .accepted (.ofDeliveries [.event (.start "c2")] true)], .refused "no route"⟩
    let two : Transport := ⟨[.accepted ⟨reply ++ [.fire, .deliver (.event .stop)], true⟩,
      .accepted (.ofDeliveries [.event (.start "c2"), .event .stop] false)], .accepted .closed⟩
    let mint : Mint := ⟨fun n => ["u1", "r1", "u2", "r2"][n]?.getD "", 0, 0⟩
    let ops := [(1700, .submit "Hi"), (1800, .send "Well?"), (1800, .step 1), (1900, .signalStop),
      (1900, .run)]
    let start := create .oldest one mint
    start.polls (start.courseDeeds ops) = [1, 1, 1, 2] ∧
      (create .oldest two mint).transcript ops = start.transcript ops := by
  intro reply one two mint ops start
  exact ⟨by decide, (consulted_course .oldest one mint).2 ops two (by decide)⟩

end Session

end Converse
