import Converse.Link.Relay
import Mathlib.Data.List.TakeWhile

/-
  What a relay delivers, whenever it is stopped.

  A relay is driven by looks, of which each may find the stop signal, something to go on with, or nothing yet.
  `Course` says where a relay stands that was not stopped; each look keeps it (`Course.step`), and so does
  any number of them. `run_deliveries` is the result: the deliveries of the arrivals before the first end,
  then one that closes the link, then none; a stop puts that one delivery earlier and changes nothing else.
-/

namespace Converse

namespace Relay

/-! ## What is to be delivered -/

/-- The arrivals before the first end or trouble. -/
def front (as : List Arrival) : List Arrival := as.takeWhile fun a => !a.delivery.isLast

/-- How the first end or trouble closes the link, or arrivals that run out. -/
def ending (as : List Arrival) : Ending :=
  match as.find? (·.delivery.isLast) with
  | some (.failed t) => .failed t.failure
  | _ => .normal

variable {as past rest : List Arrival}

/-- Nothing here closes the link. -/
def Open (as : List Arrival) : Prop := ∀ a ∈ as, a.delivery.isLast = false

theorem front_append (hp : Open past) (rest : List Arrival) : front (past ++ rest) = past ++ front rest :=
  List.takeWhile_append_of_pos fun a ha => by simp [hp a ha]

theorem ending_append (hp : Open past) (rest : List Arrival) : ending (past ++ rest) = ending rest := by
  unfold ending
  rw [List.find?_append, List.find?_eq_none.mpr fun a ha => by simp [hp a ha]]
  rfl

/-! ## One look -/

/-- Where a relay stands that was not stopped, what it has delivered, and which arrivals it has taken. -/
inductive Course : List Arrival → List Delivery → Relay → Prop
  | awaiting {past rest : List Arrival} (hp : Open past) :
    Course (past ++ rest) (past.map Arrival.delivery) ⟨rest, .awaiting⟩
  | examining {past rest : List Arrival} {t : Trouble} (hp : Open past) :
    Course (past ++ .failed t :: rest) (past.map Arrival.delivery) ⟨rest, .examining t⟩
  | closed {past rest : List Arrival} {last : Arrival} (hp : Open past) (hl : last.delivery.isLast = true) :
    Course (past ++ last :: rest) (past.map Arrival.delivery ++ [last.delivery]) ⟨rest, .closed⟩
  | exhausted {past : List Arrival} (hp : Open past) :
    Course past (past.map Arrival.delivery ++ [.closed .normal]) ⟨[], .closed⟩

variable {ds : List Delivery} {r : Relay}

theorem isLast_ofFrame (f : Reply.Frame) : (Delivery.ofFrame f).isLast = false := by
  unfold Delivery.ofFrame
  cases f.event <;> rfl

theorem Course.take (hp : Open past) :
    Course (past ++ rest)
      (past.map Arrival.delivery ++ (Relay.take ⟨rest, .awaiting⟩).1.delivery?.toList)
      (Relay.take ⟨rest, .awaiting⟩).2 := by
  have more : ∀ a rest, a.delivery.isLast = false →
      Course (past ++ a :: rest) (past.map Arrival.delivery ++ [a.delivery]) ⟨rest, .awaiting⟩ := by
    intro a rest ha
    have hc : Course ((past ++ [a]) ++ rest) _ _ :=
      .awaiting (List.forall_mem_append.mpr ⟨hp, List.forall_mem_singleton.mpr ha⟩)
    rwa [List.append_assoc, List.map_append] at hc
  cases rest with
  | nil =>
    rw [List.append_nil]
    exact .exhausted hp
  | cons a rest =>
    cases a with
    | accepted => exact more _ rest rfl
    | frame f => exact more _ rest (isLast_ofFrame f)
    | ended => exact .closed hp rfl
    | failed t =>
      have hc : Course (past ++ .failed t :: rest) _ _ := .examining hp
      rwa [← List.append_nil (past.map _)] at hc

/-- A look that does not find the stop signal. -/
theorem Course.step (h : Course as ds r) {look : Look} (hl : look ≠ .stop) :
    Course as (ds ++ (r.step look).1.delivery?.toList) (r.step look).2 := by
  have stay : ∀ {x : Feed.Fetched}, x.delivery? = none → Course as (ds ++ x.delivery?.toList) r := by
    intro x hx
    rwa [hx, Option.toList_none, List.append_nil]
  cases look with
  | stop => exact absurd rfl hl
  | nothing => cases h <;> exact stay rfl
  | ready =>
    cases h with
    | awaiting hp => exact .take hp
    | @examining past rest t hp =>
      have hc : Course (past ++ .failed t :: rest) _ _ := .closed hp rfl
      exact hc
    | closed | exhausted => exact stay rfl

/-! ## Many looks -/

theorem run_cons (r : Relay) (look : Look) (looks : List Look) :
    r.run (look :: looks) = ((r.step look).1.delivery?.toList ++ ((r.step look).2.run looks).1,
      ((r.step look).2.run looks).2) := rfl

theorem run_append (r : Relay) (looks more : List Look) :
    r.run (looks ++ more) =
      ((r.run looks).1 ++ ((r.run looks).2.run more).1, ((r.run looks).2.run more).2) := by
  induction looks generalizing r with
  | nil => rfl
  | cons look looks ih => simp only [List.cons_append, run_cons, ih, List.append_assoc]

/-- After the end there is nothing but the end. -/
theorem run_closed (h : r.stage = .closed) (looks : List Look) : r.run looks = ([], r) := by
  induction looks with
  | nil => rfl
  | cons look looks ih =>
    have hs : r.step look = (.ended, r) := by
      unfold Relay.step
      rw [h]
    rw [run_cons, hs, ih]
    rfl

theorem Course.run (h : Course as ds r) {looks : List Look} (hl : .stop ∉ looks) :
    Course as (ds ++ (r.run looks).1) (r.run looks).2 := by
  induction looks generalizing ds r with
  | nil => rwa [Relay.run, List.append_nil]
  | cons look looks ih =>
    obtain ⟨hne, hl⟩ := not_or.mp (mt List.mem_cons.mpr hl)
    rw [run_cons, ← List.append_assoc]
    exact ih (h.step (Ne.symm hne)) hl

theorem course_run {looks : List Look} (hl : .stop ∉ looks) :
    Course as ((ofArrivals as).run looks).1 ((ofArrivals as).run looks).2 := by
  have hc : Course ([] ++ as) [] (ofArrivals as) := .awaiting fun _ ha => nomatch ha
  exact hc.run hl

/-- How often a relay has still to find something. -/
def patience (r : Relay) : Nat :=
  match r.stage with
  | .awaiting => r.arrivals.length + 2
  | .examining _ => 1
  | .closed => 0

theorem patience_ready (r : Relay) : (r.step .ready).2.patience ≤ r.patience - 1 := by
  obtain ⟨as, stage⟩ := r
  cases stage with
  | awaiting =>
    cases as with
    | nil => exact Nat.zero_le _
    | cons a as =>
      cases a with
      | accepted | frame => exact Nat.le_refl _
      | ended => exact Nat.zero_le _
      | failed => exact Nat.le_add_left 1 _
  | examining | closed => exact Nat.le_refl _

theorem patience_run (r : Relay) {looks : List Look} (hl : .stop ∉ looks) :
    (r.run looks).2.patience ≤ r.patience - looks.count .ready := by
  induction looks generalizing r with
  | nil => exact Nat.le_refl _
  | cons look looks ih =>
    obtain ⟨hne, hls⟩ := not_or.mp (mt List.mem_cons.mpr hl)
    rw [run_cons]
    cases look with
    | stop => exact absurd rfl hne
    | nothing =>
      have hs : (r.step .nothing).2 = r := by
        unfold Relay.step
        cases r.stage <;> rfl
      rw [hs, List.count_cons_of_ne (by decide)]
      exact ih r hls
    | ready =>
      have hs := patience_ready r
      have hr := ih (r.step .ready).2 hls
      rw [List.count_cons_self]
      dsimp only
      omega

/-- Patience is at an end when the link is. -/
theorem stage_of_run {looks : List Look} (hl : .stop ∉ looks) (hn : as.length + 2 ≤ looks.count .ready) :
    ((ofArrivals as).run looks).2.stage = .closed := by
  have hp : ((ofArrivals as).run looks).2.patience ≤ as.length + 2 - looks.count .ready :=
    patience_run (ofArrivals as) hl
  have h0 := Nat.eq_zero_of_le_zero (hp.trans (Nat.sub_eq_zero_of_le hn).le)
  unfold patience at h0
  split at h0
  · cases h0
  · cases h0
  · next hc => exact hc

/-! ## What is delivered -/

/-- Deliveries and arrivals at a point of the course. -/
theorem Course.deliveries (h : Course as ds r) :
    (r.stage = .closed ∧ ds = (front as).map Arrival.delivery ++ [.closed (ending as)]) ∨
      (r.stage ≠ .closed ∧ ds <+: (front as).map Arrival.delivery) := by
  cases h with
  | awaiting hp =>
    refine .inr ⟨Stage.noConfusion, ?_⟩
    rw [front_append hp, List.map_append]
    exact List.prefix_append _ _
  | examining hp =>
    refine .inr ⟨Stage.noConfusion, ?_⟩
    rw [front_append hp, List.map_append]
    exact List.prefix_append _ _
  | @closed past rest last hp hl =>
    refine .inl ⟨rfl, ?_⟩
    have hfront : front (last :: rest) = [] := List.takeWhile_cons_of_neg (by simp [hl])
    have hend : Delivery.closed (ending (last :: rest)) = last.delivery := by
      cases last with
      | accepted => cases hl
      | frame f => exact absurd hl (Bool.eq_false_iff.mp (isLast_ofFrame f))
      | ended | failed => rfl
    rw [front_append hp, ending_append hp, hfront, List.append_nil, hend]
  | exhausted hp =>
    refine .inl ⟨rfl, ?_⟩
    have hfront := front_append hp []
    have hend := ending_append hp []
    rw [List.append_nil] at hfront hend
    rw [hfront, hend]
    exact congrArg (List.map _ · ++ _) (List.append_nil as).symm

/-- No arrival is taken that comes after the first end or trouble. -/
theorem Course.taken (h : Course as ds r) :
    ∃ taken, as = taken ++ r.arrivals ∧ taken.length ≤ (front as).length + 1 := by
  have hlen : ∀ {past rest}, Open past → past.length ≤ (front (past ++ rest)).length := by
    intro past rest hp
    rw [front_append hp, List.length_append]
    exact Nat.le_add_right _ _
  cases h with
  | awaiting hp => exact ⟨_, rfl, (hlen hp).trans (Nat.le_succ _)⟩
  | @examining past rest t hp =>
    refine ⟨past ++ [.failed t], by simp, ?_⟩
    rw [List.length_append]
    exact Nat.succ_le_succ (hlen hp)
  | @closed past rest last hp _ =>
    refine ⟨past ++ [last], by simp, ?_⟩
    rw [List.length_append]
    exact Nat.succ_le_succ (hlen hp)
  | exhausted hp =>
    have hl : as.length ≤ (front (as ++ [])).length := hlen hp
    rw [List.append_nil] at hl
    exact ⟨as, (List.append_nil as).symm, hl.trans (Nat.le_succ _)⟩

theorem isLast_front {d : Delivery} (hd : d ∈ (front as).map Arrival.delivery) : d.isLast = false := by
  obtain ⟨a, ha, rfl⟩ := List.mem_map.mp hd
  simpa using List.mem_takeWhile_imp ha

/-- A stop closes the link, and nothing comes after it. -/
theorem run_stop (h : r.stage ≠ .closed) (looks : List Look) :
    r.run (.stop :: looks) = ([.closed .aborted], { r with stage := .closed }) := by
  have hs : r.step .stop = r.close .aborted := by
    unfold Relay.step
    cases hr : r.stage with
    | closed => exact absurd hr h
    | awaiting | examining => rfl
  have hc : Relay.run { r with stage := .closed } looks = ([], { r with stage := .closed }) :=
    run_closed rfl looks
  rw [run_cons, hs]
  change ([_] ++ (Relay.run { r with stage := .closed } looks).1, _) = _
  rw [hc]
  exact congrArg (Prod.mk _) (congrArg Prod.snd hc)

/-- A relay after looks of which one found the stop signal. -/
theorem run_stopped (r : Relay) (before after : List Look) :
    (r.run (before ++ .stop :: after)).2 = { (r.run before).2 with stage := .closed } ∧
      (r.run (before ++ .stop :: after)).1 = (r.run before).1 ++
        if (r.run before).2.stage = .closed then [] else [.closed .aborted] := by
  rw [run_append]
  by_cases hc : (r.run before).2.stage = .closed
  · rw [run_closed hc, if_pos hc]
    refine ⟨?_, rfl⟩
    rw [← hc]
  · rw [run_stop hc, if_neg hc]
    exact ⟨rfl, rfl⟩

/-- **A link delivers what comes before the first end, closes once, and then delivers nothing, whenever it is
  stopped.** -/
theorem run_deliveries (as : List Arrival) (looks : List Look) :
    let r := (ofArrivals as).run looks
    let images := (front as).map Arrival.delivery
    (.stop ∉ looks →
      r.1 <+: images ++ [.closed (ending as)] ∧
      (as.length + 2 ≤ looks.count .ready → r.1 = images ++ [.closed (ending as)])) ∧
    (∀ before after, looks = before ++ .stop :: after → .stop ∉ before →
      let b := (ofArrivals as).run before
      ((∃ d ∈ b.1, d.isLast = true) → r.1 = images ++ [.closed (ending as)]) ∧
      ((∀ d ∈ b.1, d.isLast = false) → b.1 <+: images ∧ r.1 = b.1 ++ [.closed .aborted])) ∧
    ∃ taken, as = taken ++ r.2.arrivals ∧ taken.length ≤ (front as).length + 1 := by
  intro r images
  refine ⟨fun hl => ?_, fun before after hs hb => ?_, ?_⟩
  · rcases (course_run hl).deliveries with ⟨-, hd⟩ | ⟨hc, hd⟩
    · exact ⟨hd ▸ List.prefix_rfl, fun _ => hd⟩
    · exact ⟨hd.trans (List.prefix_append _ _), fun hn => absurd (stage_of_run hl hn) hc⟩
  · intro b
    obtain ⟨-, hr⟩ := run_stopped (ofArrivals as) before after
    rw [← hs] at hr
    rcases (course_run hb).deliveries with ⟨hc, hd⟩ | ⟨hc, hd⟩
    · rw [if_pos hc, List.append_nil] at hr
      refine ⟨fun _ => hr.trans hd, fun hopen => ?_⟩
      have hlast : Delivery.closed (ending as) ∈ b.1 := by
        change _ ∈ ((ofArrivals as).run before).1
        rw [hd]
        exact List.mem_append_right _ List.mem_cons_self
      cases hopen _ hlast
    · rw [if_neg hc] at hr
      refine ⟨fun ⟨d, hdb, hlast⟩ => ?_, fun _ => ⟨hd, hr⟩⟩
      have := isLast_front (hd.subset hdb)
      rw [this] at hlast
      cases hlast
  · by_cases hl : .stop ∈ looks
    · obtain ⟨before, after, hs, hb⟩ := List.eq_append_cons_of_mem hl
      obtain ⟨hr, -⟩ := run_stopped (ofArrivals as) before after
      rw [← hs] at hr
      obtain ⟨taken, ht⟩ := (course_run hb).taken
      refine ⟨taken, ?_⟩
      change as = taken ++ ((ofArrivals as).run looks).2.arrivals ∧ _
      rw [hr]
      exact ht
    · exact (course_run hl).taken

/-- Stopped while a refusal is looked into, and not stopped at all; the last arrival is never taken. -/
theorem run_deliveries_while_examining :
    let as : List Arrival := [.accepted, .frame ⟨"", "[\"delta\",\"Hi\"]"⟩, .frame ⟨"end", "?"⟩,
      .failed (.refused (.bare 503)), .accepted]
    let before : List Look := [.ready, .nothing, .ready, .ready, .ready, .nothing]
    ((ofArrivals as).run (before ++ [.stop, .ready])).1 =
        [.opened, .event (.delta "Hi"), .dropped none, .closed .aborted] ∧
      ((ofArrivals as).run (before ++ [.ready, .ready, .ready])).1 =
        [.opened, .event (.delta "Hi"), .dropped none,
          .closed (.failed (.status 503 "Service Unavailable" none))] := by
  intro as before
  constructor
  · have h := (run_deliveries as (before ++ [.stop, .ready])).2.1 before [.ready] rfl (by decide)
    exact (h.2 (by decide +kernel)).2.trans (by decide +kernel)
  · have h := (run_deliveries as (before ++ [.ready, .ready, .ready])).1 (by decide)
    exact (h.2 (by decide)).trans (by decide +kernel)

end Relay

/-! ## The relay at work -/

namespace Reception

open Relay

variable {n : Reception} {r : Relay}

theorem look_ne_stop (n : Reception) (r : Relay) : n.look r ≠ .stop := by
  unfold look
  cases r.stage with
  | closed => exact Look.noConfusion
  | awaiting | examining =>
    dsimp only
    split <;> exact Look.noConfusion

/-- A relay at work is driven by looks of which none finds the stop signal. -/
theorem attend_eq_run (n : Reception) (looks wanted : Nat) (r : Relay) :
    ∃ ls, .stop ∉ ls ∧ n.attend looks wanted r = r.run ls := by
  induction looks generalizing wanted r with
  | zero => exact ⟨[], List.not_mem_nil, rfl⟩
  | succ looks ih =>
    cases wanted with
    | zero => exact ⟨[], List.not_mem_nil, rfl⟩
    | succ wanted =>
      have hne := Ne.symm (n.look_ne_stop r)
      unfold attend
      split
      · next d r' hs =>
        obtain ⟨ls, hl, he⟩ := ih wanted r'
        refine ⟨n.look r :: ls, mt List.mem_cons.mp (not_or.mpr ⟨hne, hl⟩), ?_⟩
        rw [run_cons, hs, he]
        rfl
      · next r' hs =>
        obtain ⟨ls, hl, he⟩ := ih (wanted + 1) r'
        refine ⟨n.look r :: ls, mt List.mem_cons.mp (not_or.mpr ⟨hne, hl⟩), ?_⟩
        rw [run_cons, hs, he]
        rfl
      · next r' hs =>
        refine ⟨[n.look r], by simpa using hne, ?_⟩
        rw [run_cons, hs]
        rfl

/-- A link that is stopped after so many deliveries, or when it falls silent. -/
theorem stopped_deliveries (n : Reception) (count : Option Nat) :
    n.stopped count = (front n.arrivals).map Arrival.delivery ++ [.closed (ending n.arrivals)] ∨
      ∃ ds, ds <+: (front n.arrivals).map Arrival.delivery ∧ n.stopped count = ds ++ [.closed .aborted] := by
  obtain ⟨ls, hl, he⟩ := n.attend_eq_run n.patience (count.getD n.patience) (.ofArrivals n.arrivals)
  have hs : n.stopped count = ((ofArrivals n.arrivals).run (ls ++ [.stop])).1 := by
    unfold stopped
    rw [he, run_append]
  rw [hs, (run_stopped (ofArrivals n.arrivals) ls []).2]
  rcases (course_run hl).deliveries with ⟨hc, hd⟩ | ⟨hc, hd⟩
  · exact .inl (by rw [if_pos hc, hd, List.append_nil])
  · exact .inr ⟨_, hd, by rw [if_neg hc]⟩

/-- What a turn finds ends with the link, unless it falls silent before. -/
theorem feed_deliveries (n : Reception) :
    n.feed = .ofDeliveries ((front n.arrivals).map Arrival.delivery ++ [.closed (ending n.arrivals)]) false ∨
      ∃ ds, ds <+: (front n.arrivals).map Arrival.delivery ∧ n.feed = .ofDeliveries ds true := by
  obtain ⟨ls, hl, he⟩ := n.attend_eq_run n.patience n.patience (.ofArrivals n.arrivals)
  have hf : n.feed = .ofDeliveries ((ofArrivals n.arrivals).run ls).1
      (!((ofArrivals n.arrivals).run ls).2.isClosed) := by
    unfold feed
    rw [he]
  rw [hf, isClosed]
  rcases (course_run hl).deliveries with ⟨hc, hd⟩ | ⟨hc, hd⟩
  · exact .inl (by rw [hc, hd]; rfl)
  · exact .inr ⟨_, hd, by rw [beq_eq_false_iff_ne.mpr hc]; rfl⟩

end Reception

end Converse
