import Converse.Proofs.Talk.Precedence
import Mathlib.Data.List.Infix

/-
  Runs of one tool at the same time.

  The strict rule and the rule of the oldest part where two runs of one tool are running. Until then both
  come to the same (`agree_course`, `agree_record`); from then on the strict one ends no run of this tool
  (`stuck_course`); and it never has fewer of them running (`running_course_le`). `overlapped_course` puts
  these together.
-/

namespace Converse

namespace ToolRun

/-- Where a tool ends, one run fewer is running, if one was. -/
theorem length_running_afterEnd (tool : String) (success : Bool) (summary : Option String)
    (runs : List ToolRun) :
    ((afterEnd tool success summary runs).filter (isRunningAs tool)).length =
      (runs.filter (isRunningAs tool)).length - 1 := by
  induction runs with
  | nil => rfl
  | cons t runs ih =>
    rw [afterEnd_cons]
    by_cases ht : t.isRunningAs tool = true
    · have hended : ¬ (t.finish success summary).isRunningAs tool = true := by
        rw [isRunningAs_finish]
        exact Bool.false_ne_true
      rw [if_pos ht, List.filter_cons_of_neg hended, List.filter_cons_of_pos ht]
      rfl
    · rw [if_neg ht, List.filter_cons_of_neg ht, List.filter_cons_of_neg ht, ih]

end ToolRun

namespace Toolbox

open Renaming (nameless)

variable {tool : String} {b c : Toolbox}

/-- How many runs of the tool are running. -/
def running (tool : String) (b : Toolbox) : Nat := (b.runs.filter (ToolRun.isRunningAs tool)).length

/-- At some point of the calls two runs of the tool were running at the same time. -/
def Overlaps (matching : Matching) (tool : String) (calls : List Call) : Prop :=
  ∃ earlier, earlier <+: calls ∧ 2 ≤ ((empty matching).course earlier).running tool

theorem running_eq (b : Toolbox) :
    b.running tool = ((b.only tool).runs.filter ToolRun.isRunning).length := by
  rw [running, ToolRun.filter_isRunningAs]
  rfl

theorem running_congr (h : (b.only tool).runs = (c.only tool).runs) : b.running tool = c.running tool := by
  rw [running_eq, running_eq, h]

/-- One run of a tool leaves no doubt which one ends, under either rule. -/
theorem isAmbiguous_of_apart (h : b.running tool ≤ 1) : b.isAmbiguous tool = false := by
  have hn : ¬ 1 < (b.runs.filter (ToolRun.isRunningAs tool)).length := Nat.not_lt.mpr h
  rw [isAmbiguous, decide_eq_false hn, Bool.and_false]

theorem finish_of_overlap (hm : b.matching = .strict) (h : 2 ≤ b.running tool) (success : Bool)
    (summary : Option String) : b.finish tool success summary = none := by
  have ha : b.isAmbiguous tool = true := by
    rw [isAmbiguous, hm]
    exact decide_eq_true h
  rw [finish, ha, if_pos rfl]

/-! ## Apart -/

/-- The same runs come to the same, whatever the rule, where no two of the tool are running. -/
theorem perform_congr (hr : b.runs = c.runs) (h : b.running tool ≤ 1) {call : Call}
    (hcall : call.concerns tool = true) :
    (b.perform call).1 = (c.perform call).1 ∧ (b.perform call).2.runs = (c.perform call).2.runs := by
  cases call with
  | start id t arguments => exact ⟨rfl, congrArg (· ++ [ToolRun.start id t arguments]) hr⟩
  | finish t success summary =>
    have ht : t = tool := by simpa [Call.concerns, Call.tool?] using hcall
    subst ht
    have hc : c.running t ≤ 1 := by
      rwa [running, ← hr]
    have hb := finish_of_unambiguous (isAmbiguous_of_apart h) success summary
    have hc := finish_of_unambiguous (isAmbiguous_of_apart hc) success summary
    rw [← hr] at hc
    cases hf : ToolRun.finishFirst t success summary b.runs with
    | none =>
      rw [hf] at hb hc
      rw [perform_of_none hb, perform_of_none hc]
      exact ⟨rfl, hr⟩
    | some r =>
      rw [hf] at hb hc
      rw [perform_of_some hb, perform_of_some hc]
      exact ⟨rfl, rfl⟩
  | take => exact ⟨congrArg Answer.taken hr, rfl⟩
  | clear => exact ⟨rfl, rfl⟩

theorem agree_perform (hr : (b.only tool).runs = (c.only tool).runs) (h : b.running tool ≤ 1)
    (call : Call) : ((b.perform call).2.only tool).runs = ((c.perform call).2.only tool).runs ∧
      (call.finishes tool = true → (b.perform call).1 = (c.perform call).1) := by
  have honly : (b.only tool).running tool ≤ 1 := by
    have he : ((b.only tool).only tool).runs = (b.only tool).runs := filter_only b
    rwa [running_congr he]
  by_cases hcall : call.concerns tool = true
  · obtain ⟨ha, hruns⟩ := perform_congr hr honly hcall
    rw [only_perform hcall, only_perform hcall]
    refine ⟨hruns, fun hf => ?_⟩
    rw [← answer_only hf b, ← answer_only hf c, ha]
  · rw [only_perform_of_not hcall, only_perform_of_not hcall]
    exact ⟨hr, fun hf => absurd (Call.concerns_of_finishes hf) hcall⟩

theorem Overlaps.mono {matching : Matching} {calls more : List Call} (h : Overlaps matching tool calls)
    (hp : calls <+: more) : Overlaps matching tool more := by
  obtain ⟨earlier, he, hr⟩ := h
  exact ⟨earlier, he.trans hp, hr⟩

variable {matching other : Matching} {calls : List Call}

theorem running_of_not_overlaps (h : ¬ Overlaps matching tool calls) :
    ((empty matching).course calls).running tool ≤ 1 := by
  by_contra hr
  exact h ⟨calls, List.prefix_refl calls, Nat.lt_of_not_le hr⟩

/-- As long as no two runs of a tool overlap under one rule, any rule has the same of them. -/
theorem agree_course (h : ¬ Overlaps matching tool calls) :
    (((empty matching).course calls).only tool).runs = (((empty other).course calls).only tool).runs := by
  induction calls using List.reverseRecOn with
  | nil => rfl
  | append_singleton calls c ih =>
    have hearlier : ¬ Overlaps matching tool calls := fun ho => h (ho.mono (List.prefix_append calls [c]))
    rw [course_concat, course_concat]
    exact (agree_perform (ih hearlier) (running_of_not_overlaps hearlier) c).1

theorem agree_record (h : ¬ Overlaps matching tool calls) :
    ((empty matching).record calls).filter (·.1.finishes tool) =
      ((empty other).record calls).filter (·.1.finishes tool) := by
  induction calls using List.reverseRecOn with
  | nil => rfl
  | append_singleton calls c ih =>
    have hearlier : ¬ Overlaps matching tool calls := fun ho => h (ho.mono (List.prefix_append calls [c]))
    have hsame := @agree_course tool matching other calls hearlier
    have hc := (agree_perform hsame (running_of_not_overlaps hearlier) c).2
    rw [record_concat, record_concat, List.filter_append, List.filter_append, ih hearlier]
    by_cases hf : c.finishes tool = true
    · rw [hc hf]
    · have hskip : ∀ a : Answer, [(c, a)].filter (·.1.finishes tool) = [] :=
        fun a => List.filter_cons_of_neg hf
      rw [hskip, hskip]

/-! ## Overlapping -/

/-- Once two runs of the tool are running, the strict rule ends none of them, and those that begin go on. -/
theorem stuck_perform (hm : b.matching = .strict) (h : 2 ≤ b.running tool) {call : Call}
    (hcall : call.empties = false) :
    ((b.perform call).2.only tool).runs =
        (b.only tool).runs ++ call.begins.toList.filter (·.tool == tool) ∧
      (call.finishes tool = true → (b.perform call).1 = .ended none) := by
  cases call with
  | start id t arguments => exact ⟨List.filter_append _ _, fun hf => nomatch hf⟩
  | finish t success summary =>
    have hbegins : (Call.finish t success summary).begins = none := rfl
    rw [hbegins, Option.toList_none, List.filter_nil, List.append_nil]
    by_cases ht : t = tool
    · subst ht
      rw [perform_of_none (finish_of_overlap hm h success summary)]
      exact ⟨rfl, fun _ => rfl⟩
    · have hnot : ¬ (Call.finish t success summary).concerns tool = true := by
        simpa [Call.concerns, Call.tool?] using ht
      refine ⟨congrArg runs (only_perform_of_not hnot b), fun hf => ?_⟩
      exact absurd (Call.concerns_of_finishes hf) hnot
  | take => cases hcall
  | clear => cases hcall

theorem stuck_course (hm : b.matching = .strict) (h : 2 ≤ b.running tool) {later : List Call}
    (hlater : ∀ c ∈ later, c.empties = false) :
    ((b.course later).only tool).runs =
        (b.only tool).runs ++ (later.filterMap Call.begins).filter (·.tool == tool) ∧
      ∀ e ∈ b.record later, e.1.finishes tool = true → e.2 = .ended none := by
  induction later generalizing b with
  | nil => exact ⟨(List.append_nil _).symm, fun e he => absurd he List.not_mem_nil⟩
  | cons c later ih =>
    obtain ⟨hc, hlater⟩ := List.forall_mem_cons.mp hlater
    obtain ⟨hruns, hanswer⟩ := stuck_perform hm h hc
    have hrunning : 2 ≤ (b.perform c).2.running tool := by
      rw [running_eq, hruns, List.filter_append, List.length_append, ← running_eq]
      omega
    obtain ⟨hcourse, hrecord⟩ := ih ((matching_perform b c).trans hm) hrunning hlater
    constructor
    · have hbegins : ((c :: later).filterMap Call.begins).filter (·.tool == tool) =
          c.begins.toList.filter (·.tool == tool) ++
            (later.filterMap Call.begins).filter (·.tool == tool) := by
        rw [← List.filter_append]
        cases hb : c.begins <;> simp [hb]
      rw [hbegins, ← List.append_assoc, ← hruns]
      exact hcourse
    · intro e he
      rcases List.mem_cons.mp he with rfl | he
      · exact hanswer
      · exact hrecord e he

/-! ## How many are running -/

theorem running_afterEnd (b : Toolbox) (success : Bool) (summary : Option String) :
    (b.afterEnd tool success summary).running tool =
      if b.isAmbiguous tool then b.running tool else b.running tool - 1 := by
  rw [afterEnd_eq]
  cases b.isAmbiguous tool with
  | true => rfl
  | false => exact ToolRun.length_running_afterEnd tool success summary b.runs

/-- The strict rule never has fewer runs of a tool running. -/
theorem running_perform_le {s o : Toolbox} (hs : s.matching = .strict) (ho : o.matching = .oldest)
    (h : o.running tool ≤ s.running tool) (call : Call) :
    (o.perform call).2.running tool ≤ (s.perform call).2.running tool := by
  by_cases hcall : call.concerns tool = true
  · cases call with
    | start id t arguments =>
      have hstart : ∀ b : Toolbox, (b.perform (.start id t arguments)).2.running tool =
          b.running tool + ([ToolRun.start id t arguments].filter (ToolRun.isRunningAs tool)).length := by
        intro b
        rw [running, running, ← List.length_append, ← List.filter_append]
        rfl
      rw [hstart, hstart]
      exact Nat.add_le_add_right h _
    | finish t success summary =>
      have ht : t = tool := by simpa [Call.concerns, Call.tool?] using hcall
      subst ht
      have hoa : o.isAmbiguous t = false := isAmbiguous_of_oldest ho t
      have hsa : s.isAmbiguous t = decide (2 ≤ s.running t) := by
        rw [isAmbiguous, hs]
        rfl
      have ho' := @running_afterEnd t o success summary
      have hs' := @running_afterEnd t s success summary
      rw [hoa, if_neg Bool.false_ne_true] at ho'
      rw [hsa] at hs'
      change (o.afterEnd t success summary).running t ≤ (s.afterEnd t success summary).running t
      rw [ho', hs']
      split <;> omega
    | take => exact Nat.le_refl 0
    | clear => exact Nat.le_refl 0
  · rw [running_congr (congrArg runs (only_perform_of_not hcall o)),
      running_congr (congrArg runs (only_perform_of_not hcall s))]
    exact h

theorem running_course_le (calls : List Call) :
    ((empty .oldest).course calls).running tool ≤ ((empty .strict).course calls).running tool := by
  induction calls using List.reverseRecOn with
  | nil => exact Nat.le_refl 0
  | append_singleton calls c ih =>
    rw [course_concat, course_concat]
    exact running_perform_le (matching_course _ calls) (matching_course _ calls) ih c

/-! ## The two rules side by side -/

theorem running_rename (w : Renaming) (b : Toolbox) : (w.toolbox b).running tool = b.running tool := by
  unfold running Renaming.toolbox
  rw [List.filter_map, List.length_map]
  rfl

/-- **The strict rule beside that of the oldest.** The same calls are made of both, with identities left open.
  As long as no two runs of a tool have been running at the same time, by either rule, both have the same runs
  of it and each end of it comes to the same. From the moment on that two of them are running under the strict
  rule, no end of this tool matches any more: its runs stay as they are, and those that begin later go on
  running, until the toolbox is emptied. At any time at least as many runs of a tool are running under the
  strict rule. -/
theorem overlapped_course (tool : String) {calls others : List Call}
    (h : others.map nameless.call = calls.map nameless.call) :
    let strict := (empty .strict).course calls
    let oldest := (empty .oldest).course others
    (∀ matching, ¬ Overlaps matching tool calls →
      (strict.only tool).runs.map nameless.run = (oldest.only tool).runs.map nameless.run ∧
      (((empty .strict).record calls).filter (·.1.finishes tool)).map nameless.entry =
        (((empty .oldest).record others).filter (·.1.finishes tool)).map nameless.entry) ∧
    (∀ earlier later, calls = earlier ++ later → 2 ≤ ((empty .strict).course earlier).running tool →
      (∀ c ∈ later, c.empties = false) →
      (strict.only tool).runs =
        (((empty .strict).course earlier).only tool).runs ++
          (later.filterMap Call.begins).filter (·.tool == tool) ∧
      ∀ e ∈ ((empty .strict).course earlier).record later,
        e.1.finishes tool = true → e.2 = .ended none) ∧
    oldest.running tool ≤ strict.running tool := by
  intro strict oldest
  have hcourse : nameless.toolbox oldest = nameless.toolbox ((empty .oldest).course calls) := by
    rw [← course_rename, ← course_rename, h]
  have hrecord : ((empty .oldest).record others).map nameless.entry =
      ((empty .oldest).record calls).map nameless.entry := by
    rw [← record_rename, ← record_rename, h]
  refine ⟨fun matching ho => ⟨?_, ?_⟩, ?_, ?_⟩
  · have hsame : (strict.only tool).runs = (((empty .oldest).course calls).only tool).runs :=
      (agree_course ho).symm.trans (agree_course ho)
    have hleft : (nameless.toolbox (oldest.only tool)).runs =
        (nameless.toolbox (((empty .oldest).course calls).only tool)).runs := by
      rw [← only_rename, hcourse, only_rename]
    rw [hsame]
    exact hleft.symm
  · have hsame : ((empty .strict).record calls).filter (·.1.finishes tool) =
        ((empty .oldest).record calls).filter (·.1.finishes tool) :=
      (agree_record ho).symm.trans (agree_record ho)
    rw [hsame, filter_finishes_rename, filter_finishes_rename, hrecord]
  · rintro earlier later rfl hr hlater
    have hsplit : strict = ((empty .strict).course earlier).course later := List.foldl_append
    rw [hsplit]
    exact stuck_course (matching_course _ earlier) hr hlater
  · rw [← running_rename nameless oldest, hcourse, running_rename]
    exact running_course_le calls

/-- A tool that ends under both rules, then two runs of it at once, beside another tool. -/
theorem overlapped_course_of_two :
    let apart : List Call := [.start "1" "a" [], .start "2" "b" [], .finish "a" true (some "x"),
      .start "3" "b" [], .start "4" "a" []]
    let others : List Call := [.start "5" "a" [], .start "6" "b" [], .finish "a" true (some "x"),
      .start "7" "b" [], .start "8" "a" []]
    let later : List Call := [.start "9" "a" [], .finish "a" true none, .start "10" "a" [],
      .finish "b" true none, .finish "a" false none]
    (others.map nameless.call = apart.map nameless.call ∧ ¬ Overlaps .strict "a" apart ∧
      (((empty .strict).course apart).only "a").runs.map nameless.run =
        (((empty .oldest).course others).only "a").runs.map nameless.run) ∧
    (2 ≤ ((empty .strict).course (apart ++ later.take 1)).running "a" ∧
      (∀ c ∈ later.drop 1, c.empties = false) ∧
      (∀ e ∈ ((empty .strict).course (apart ++ later.take 1)).record (later.drop 1),
        e.1.finishes "a" = true → e.2 = .ended none) ∧
      ((empty .oldest).course (apart ++ later)).running "a" ≤
        ((empty .strict).course (apart ++ later)).running "a") := by
  intro apart others later
  have h : others.map nameless.call = apart.map nameless.call := by decide
  have hapart : ¬ Overlaps .strict "a" apart := by
    rintro ⟨earlier, he, hr⟩
    have hall : ∀ p ∈ apart.inits, ¬ 2 ≤ ((empty .strict).course p).running "a" := by decide
    exact hall earlier ((List.mem_inits earlier apart).mpr he) hr
  have hr : 2 ≤ ((empty .strict).course (apart ++ later.take 1)).running "a" := by decide
  have hlater : ∀ c ∈ later.drop 1, c.empties = false := by decide
  obtain ⟨hagree, -, -⟩ := overlapped_course "a" h
  obtain ⟨-, hstuck, hle⟩ := overlapped_course "a" (Eq.refl ((apart ++ later).map nameless.call))
  exact ⟨⟨h, hapart, (hagree .strict hapart).1⟩, hr, hlater,
    (hstuck (apart ++ later.take 1) (later.drop 1) rfl hr hlater).2, hle⟩

end Toolbox

end Converse
