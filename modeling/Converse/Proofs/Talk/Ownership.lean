import Converse.Proofs.Talk.Course

/-
  Who owns a link, and when its signal has fired.

  The requests of a session are numbered from one, and so are their signals. `owned_course` says of every
  course that the link of a turn under way has the signal that the switch would fire, and that the signal of
  a request has fired exactly if its link was opened and its turn is over, or if it was hit: by a stop from
  outside or by the stream itself, while it was the latest. So of all links that were ever opened only the
  one under way can be open still (`Owned.live`).
-/

namespace Converse

/-- What comes of the request with a number, counted from zero. -/
def Transport.opening (t : Transport) (n : Nat) : Opening := t.openings[n]?.getD t.afterwards

def Transport.Accepts (t : Transport) (n : Nat) : Prop := ∃ feed, t.opening n = .accepted feed

theorem Transport.opening_zero (t : Transport) : t.opening 0 = t.next.1 := by
  unfold opening next
  cases t.openings <;> rfl

theorem Transport.opening_succ (t : Transport) (n : Nat) :
    t.opening (n + 1) = t.next.2.opening n := by
  unfold opening next
  split
  · next h => simp [h]
  · next h => simp [h]

namespace Session

/-- The signal of the turn under way. -/
def Phase.signal? (p : Phase) : Option Nat := p.link?.map (·.signal)

/-! ## Hits -/

/-- The number of the request whose signal a deed fires directly: the one installed, if the stop comes from
  outside or if the stream itself fires while it is asked. -/
def hit (s : Session) : Deed → Option Nat
  | .signalStop => some s.switch.installed
  | .step => if s.firesItself then some s.switch.installed else none
  | _ => none

/-- All hits of deeds in order. -/
def hits (s : Session) : List Deed → List Nat
  | [] => []
  | d :: ds => (s.hit d).toList ++ (s.enact d).hits ds

/-! ## The invariant -/

/-- The switch, the links that were opened by the script, and the hits so far fit together. -/
structure Owned (script : Transport) (hits : List Nat) (s : Session) : Prop where
  installed : s.switch.installed = s.journal.questions.length
  size : s.switch.fired.length = s.journal.questions.length + 1
  upcoming : ∀ n, s.transport.opening n = script.opening (s.journal.questions.length + n)
  signal : ∀ i, s.phase.signal? = some i →
    ∃ k, i = k + 1 ∧ s.journal.questions.length = k + 1 ∧ script.Accepts k
  past : ∀ i ∈ hits, i ≤ s.journal.questions.length
  fired_iff : ∀ k, k < s.journal.questions.length →
    (s.switch.hasFired (k + 1) = true ↔
      (script.Accepts k ∧ s.phase.signal? ≠ some (k + 1)) ∨ k + 1 ∈ hits)

variable {script : Transport} {hits : List Nat} {s t : Session}

/-- A link that was opened and has not been closed is the one of the turn under way. -/
theorem Owned.live (h : Owned script hits s) {k : Nat} (hk : k < s.journal.questions.length)
    (ha : script.Accepts k) (hf : s.switch.hasFired (k + 1) = false) :
    s.phase.signal? = some (k + 1) := by
  by_cases hp : s.phase.signal? = some (k + 1)
  · exact hp
  · have := (h.fired_iff k hk).mpr (.inl ⟨ha, hp⟩)
    simp [hf] at this

/-- The link of a turn under way has the signal that is installed. -/
theorem Owned.signal_eq (h : Owned script hits s) {link : Link} (hl : s.phase.link? = some link) :
    link.signal = s.switch.installed := by
  obtain ⟨k, hk, hq, -⟩ := h.signal link.signal (by simp [Phase.signal?, hl])
  rw [h.installed, hk, hq]

theorem Owned.signal_lt (h : Owned script hits s) {link : Link} (hl : s.phase.link? = some link) :
    link.signal < s.switch.fired.length := by
  rw [h.signal_eq hl, h.installed, h.size]
  exact Nat.lt_succ_self _

/-- Only the signal of the turn, the switch, the requests and the openings to come matter. -/
theorem Owned.of_same (h : Owned script hits s) (hp : t.phase.signal? = s.phase.signal?)
    (hi : t.switch.installed = s.switch.installed) (hf : t.switch.fired = s.switch.fired)
    (hq : t.journal.questions = s.journal.questions) (ht : t.transport = s.transport) :
    Owned script hits t := by
  obtain ⟨h1, h2, h3, h4, h5, h6⟩ := h
  unfold Switch.hasFired at h6
  constructor
  · rw [hi, hq, h1]
  · rw [hf, hq, h2]
  · rw [ht, hq]
    exact h3
  · rw [hp, hq]
    exact h4
  · rw [hq]
    exact h5
  · unfold Switch.hasFired
    rw [hp, hq, hf]
    exact h6

/-- A turn that ends closes its link; if none is under way nothing happens. -/
theorem Owned.leave (h : Owned script hits s) : Owned script hits s.leave := by
  cases hl : s.phase.link? with
  | none =>
    have hs : s.leave.switch = s.switch := by simp [Session.leave, hl]
    refine h.of_same ?_ (by rw [hs]) (by rw [hs]) rfl rfl
    simp [Session.leave, Phase.signal?, Phase.link?, Phase.link?_eq_none.mp hl]
  | some link =>
    have hs : s.leave.switch = s.switch.fire link.signal := by simp [Session.leave, hl]
    have hsig : s.phase.signal? = some link.signal := by simp [Phase.signal?, hl]
    obtain ⟨n, hn, hq, ha⟩ := h.signal _ hsig
    constructor
    · rw [hs]
      exact h.installed
    · rw [hs, Switch.fire, List.length_set]
      exact h.size
    · exact h.upcoming
    · intro i hi
      simp [Session.leave, Phase.signal?, Phase.link?] at hi
    · exact h.past
    · intro k hk
      have hlt : link.signal < s.switch.fired.length := by rw [h.size]; omega
      have hk' : k < s.journal.questions.length := hk
      rw [hs, Switch.hasFired_fire hlt, h.fired_iff k hk', hsig]
      have hidle : s.leave.phase.signal? ≠ some (k + 1) := by
        simp [Session.leave, Phase.signal?, Phase.link?]
      by_cases he : k = n
      · subst he
        simp [hn, ha, hidle]
      · have hne : ¬ k + 1 = link.signal := by omega
        have hne' : some link.signal ≠ some (k + 1) := by simp; omega
        simp [hne, hne', hidle]

theorem Owned.kept : Kept (Owned script hits) where
  remark _ _ h := h.of_same rfl rfl rfl rfl rfl
  publish _ h := h.of_same rfl rfl rfl rfl rfl
  countDropped _ h := h.of_same rfl rfl rfl rfl rfl
  abort s h := by
    unfold abort
    split
    · exact h
    · exact h.leave.of_same rfl rfl rfl rfl rfl
    · split
      · exact h.leave.of_same rfl rfl rfl rfl rfl
      · exact h.leave.of_same rfl rfl rfl rfl rfl
  fail _ _ _ h := h.leave.of_same rfl rfl rfl rfl rfl
  complete _ _ _ _ h := h.leave.of_same rfl rfl rfl rfl rfl
  startReply s link _ hp h := h.of_same (by rw [hp]; rfl) rfl rfl rfl rfl
  grow s link draft _ hp h := h.of_same (by rw [hp]; rfl) rfl rfl rfl rfl
  startTool _ _ _ _ _ _ h := h.of_same rfl rfl rfl rfl rfl
  finishTool s _ _ _ _ _ _ h := by
    unfold finishTool
    split
    · exact h.of_same rfl rfl rfl rfl rfl
    · split
      · exact h.of_same rfl rfl rfl rfl rfl
      · exact h.of_same rfl rfl rfl rfl rfl

/-- A stop from outside hits the latest request. -/
theorem Owned.signalStop (h : Owned script hits s) :
    Owned script (hits ++ [s.switch.installed]) s.signalStop := by
  have hlt : s.switch.installed < s.switch.fired.length := by
    rw [h.installed, h.size]
    omega
  constructor
  · exact h.installed
  · simpa [Session.signalStop, Switch.stop, Switch.fire] using h.size
  · exact h.upcoming
  · exact h.signal
  · intro i hi
    rcases List.mem_append.mp hi with hi | hi
    · exact h.past i hi
    · rw [List.mem_singleton.mp hi]
      exact Nat.le_of_eq h.installed
  · intro k hk
    have hfire : s.signalStop.switch.hasFired (k + 1) = true ↔
        k + 1 = s.switch.installed ∨ s.switch.hasFired (k + 1) = true :=
      Switch.hasFired_fire hlt (k + 1)
    have hphase : s.signalStop.phase = s.phase := rfl
    rw [hfire, h.fired_iff k hk, hphase, List.mem_append, List.mem_singleton, or_comm, or_assoc]

/-- Asking the link may hit the signal of its turn, which is the latest. -/
theorem Owned.fetched (h : Owned script hits s) {link : Link} (hl : s.phase.link? = some link)
    (hf : s.switch.hasFired link.signal = false) :
    Owned script (hits ++ (s.hit .step).toList) (s.fetched link) := by
  have hsame : (s.fetched link).phase.signal? = s.phase.signal? := by
    simp [Phase.signal?, link?_fetched hl, hl]
  have hi := h.signal_eq hl
  cases hx : link.feed.fetch.2.2 with
  | true =>
    have hhit : s.hit .step = some s.switch.installed := by
      simp [hit, firesItself, hl, hf, hx]
    rw [hhit]
    refine h.signalStop.of_same hsame ?_ ?_ rfl rfl
    · simp [Session.fetched, hx, Session.signalStop, Switch.stop, Switch.fire]
    · simp [Session.fetched, hx, Session.signalStop, Switch.stop, hi]
  | false =>
    have hhit : s.hit .step = none := by simp [hit, firesItself, hl, hx]
    rw [hhit, Option.toList_none, List.append_nil]
    refine h.of_same hsame ?_ ?_ rfl rfl
    · simp [Session.fetched, hx]
    · simp [Session.fetched, hx]

/-- The signal of a request that is still to come has not fired, and nothing has hit it. -/
theorem Owned.unfired_upcoming (h : Owned script hits s) :
    s.switch.hasFired (s.journal.questions.length + 1) = false :=
  Switch.hasFired_of_le (Nat.le_of_eq h.size)

theorem Owned.not_mem_upcoming (h : Owned script hits s) :
    s.journal.questions.length + 1 ∉ hits := by
  intro hm
  have := h.past _ hm
  omega

/-- A new request gets a signal of its own. -/
theorem Owned.begin (h : Owned script hits s) (hp : s.phase = .idle)
    (hi : t.switch.installed = s.switch.begin.installed)
    (hf : t.switch.fired = s.switch.begin.fired)
    (hq : t.journal.questions.length = s.journal.questions.length + 1)
    (ht : t.transport = s.transport.next.2)
    (hs : t.phase.signal? = match s.transport.next.1 with
      | .accepted _ => some s.switch.begin.installed
      | .refused _ => none) : Owned script hits t := by
  have hnew : s.switch.begin.installed = s.journal.questions.length + 1 := h.size
  have hopen : s.transport.next.1 = script.opening s.journal.questions.length := by
    rw [← Transport.opening_zero, h.upcoming 0, Nat.add_zero]
  have hidle : s.phase.signal? = none := by simp [hp, Phase.signal?, Phase.link?]
  constructor
  · rw [hi, hnew, hq]
  · rw [hf, hq, ← h.size]
    simp [Switch.begin]
  · intro n
    rw [ht, ← Transport.opening_succ, h.upcoming, hq]
    congr 1
    omega
  · intro i hi
    rw [hs, hopen] at hi
    cases ho : script.opening s.journal.questions.length with
    | refused reason => simp [ho] at hi
    | accepted feed =>
      simp only [ho, Option.some.injEq] at hi
      exact ⟨s.journal.questions.length, by omega, hq, feed, ho⟩
  · intro i hi
    have := h.past i hi
    omega
  · intro k hk
    have hfired : t.switch.hasFired (k + 1) = true ↔ s.switch.hasFired (k + 1) = true := by
      rw [← Switch.hasFired_begin s.switch]
      unfold Switch.hasFired
      rw [hf]
    by_cases hlt : k < s.journal.questions.length
    · rw [hfired, h.fired_iff k hlt, hidle, hs]
      have hne : s.switch.begin.installed ≠ k + 1 := by omega
      split <;> simp [hne]
    · have he : k = s.journal.questions.length := by omega
      subst he
      rw [hfired, h.unfired_upcoming, hs, hnew, hopen]
      cases ho : script.opening s.journal.questions.length with
      | refused reason => simp [Transport.Accepts, ho, h.not_mem_upcoming]
      | accepted feed => simp [h.not_mem_upcoming]

theorem Owned.request (h : Owned script hits s) (hp : s.phase = .idle) (text : String) :
    Owned script hits (s.request text) := by
  unfold Session.request openLink
  split
  · next feed hx =>
    have hx : s.transport.next.1 = .accepted feed := hx
    refine h.begin hp rfl rfl ?_ rfl ?_
    · simp [remark, ask, say, announce, spendId]
    · rw [hx]
      rfl
  · next reason hx =>
    have hx : s.transport.next.1 = .refused reason := hx
    refine h.begin hp ?_ ?_ ?_ rfl ?_
    · simp [fail, announce, rest, remark, dropTools, Session.leave, ask, say, spendId, hp,
        Phase.link?, Switch.rest]
    · simp [fail, announce, rest, remark, dropTools, Session.leave, ask, say, spendId, hp,
        Phase.link?, Switch.rest]
    · simp [fail, announce, rest, remark, dropTools, Session.leave, ask, say, spendId]
    · rw [hx]
      rfl

/-! ## Courses -/

theorem Owned.enact (h : Owned script hits s) (d : Deed) :
    Owned script (hits ++ (s.hit d).toList) (s.enact d) := by
  have misses (hd : s.hit d = none) (ho : Owned script hits (s.enact d)) :
      Owned script (hits ++ (s.hit d).toList) (s.enact d) := by
    rw [hd, Option.toList_none, List.append_nil]
    exact ho
  cases d with
  | setClock now => exact misses rfl (h.of_same rfl rfl rfl rfl rfl)
  | send text => exact misses rfl (Owned.kept.send text (fun t hp ht => ht.request hp text) h)
  | step =>
    refine Owned.kept.step (fun link hl hf => h.fetched hl hf) ?_
    intro hq
    have hd : s.hit .step = none := by rw [hit, hq, if_neg Bool.false_ne_true]
    rw [hd, Option.toList_none, List.append_nil]
    exact h
  | stop => exact misses rfl (Owned.kept.stop h)
  | clear => exact misses rfl (h.leave.of_same rfl rfl rfl rfl rfl)
  | signalStop => exact h.signalStop

theorem Owned.enactAll (ds : List Deed) (h : Owned script hits s) :
    Owned script (hits ++ s.hits ds) (s.enactAll ds) := by
  induction ds generalizing s hits with
  | nil =>
    rw [Session.hits, List.append_nil]
    exact h
  | cons d ds ih =>
    have := ih (h.enact d)
    rw [List.append_assoc] at this
    exact this

theorem owned_create (matching : Matching) (transport : Transport) (mint : Mint) :
    Owned transport [] (create matching transport mint) := by
  constructor <;> simp [create, Switch.initial, Phase.signal?, Phase.link?]

theorem owned_of_course (matching : Matching) (transport : Transport) (mint : Mint)
    (ops : List (Int × Operation)) :
    let start := create matching transport mint
    Owned transport (start.hits (start.courseDeeds ops)) (start.course ops) := by
  intro start
  have h := (owned_create matching transport mint).enactAll (start.courseDeeds ops)
  rw [List.nil_append, ← course_eq_enactAll] at h
  exact h

/-- **Ownership.** After every course the link under way has the signal installed, and the signal of a
  request has fired exactly if its link was opened and its turn is over, or if it was hit. So every other
  link that was opened is closed. -/
theorem owned_course (matching : Matching) (transport : Transport) (mint : Mint)
    (ops : List (Int × Operation)) :
    let start := create matching transport mint
    let s := start.course ops
    s.switch.installed = s.journal.questions.length ∧
    (∀ link, s.phase.link? = some link → link.signal = s.switch.installed) ∧
    ∀ k, k < s.journal.questions.length →
      (s.switch.hasFired (k + 1) = true ↔
        (transport.Accepts k ∧ s.phase.signal? ≠ some (k + 1)) ∨
          k + 1 ∈ start.hits (start.courseDeeds ops)) ∧
      (transport.Accepts k → s.switch.hasFired (k + 1) = false →
        s.phase.signal? = some (k + 1)) := by
  intro start s
  have h := owned_of_course matching transport mint ops
  exact ⟨h.installed, fun link hl => h.signal_eq hl, fun k hk => ⟨h.fired_iff k hk, h.live hk⟩⟩

end Session

end Converse
