import Converse.Proofs.Talk.Toolwork
import Mathlib.Data.List.DropRight

/-
  First begun, first ended.

  A toolbox that ends the oldest run keeps one list for all tools, and yet each tool has a queue of its own:
  the completions of a tool close its runs in the order in which they began (`ToolRun.served`). `Queued` says
  so of a toolbox and of what has happened since it was last emptied. `queued_course` is the result.
-/

namespace Converse

namespace Toolbox

/-- How a run ended. -/
structure Completion where
  success : Bool
  summary : Option String

/-- The run that a call begins, with nothing to be said of it yet. -/
def Call.begins : Call → Option ToolRun
  | .start id tool arguments => some ⟨id, tool, arguments, .running, none⟩
  | _ => none

/-- Whether no run is left after the call. -/
def Call.empties : Call → Bool
  | .take | .clear => true
  | _ => false

/-- How a run of the tool ended by a call, if one did. -/
def completes (tool : String) : Call × Answer → Option Completion
  | (.finish t success summary, .ended (some _)) => if t = tool then some ⟨success, summary⟩ else none
  | _ => none

/-- The part of a record that comes after the toolbox was last emptied. -/
def sinceEmptied (log : List (Call × Answer)) : List (Call × Answer) := log.rtakeWhile fun e => !e.1.empties

/-- The runs that began, in order. -/
def begun (log : List (Call × Answer)) : List ToolRun := log.filterMap fun e => e.1.begins

/-- The runs of one tool that began, in order. -/
def begunAs (tool : String) (log : List (Call × Answer)) : List ToolRun :=
  (begun log).filter (·.tool == tool)

/-- How the runs of one tool ended, in order. -/
def completions (tool : String) (log : List (Call × Answer)) : List Completion :=
  log.filterMap (completes tool)

theorem begun_concat (log : List (Call × Answer)) (e : Call × Answer) :
    begun (log ++ [e]) = begun log ++ e.1.begins.toList := by
  unfold begun
  rw [List.filterMap_append]
  cases h : e.1.begins <;> simp [h]

theorem begunAs_concat (tool : String) (log : List (Call × Answer)) (e : Call × Answer) :
    begunAs tool (log ++ [e]) = begunAs tool log ++ e.1.begins.toList.filter (·.tool == tool) := by
  unfold begunAs
  rw [begun_concat, List.filter_append]

theorem completions_concat (tool : String) (log : List (Call × Answer)) (e : Call × Answer) :
    completions tool (log ++ [e]) = completions tool log ++ (completes tool e).toList := by
  unfold completions
  rw [List.filterMap_append]
  cases h : completes tool e <;> simp [h]

end Toolbox

namespace ToolRun

open Toolbox (Completion)

/-- The run as it began. -/
def asBegun (t : ToolRun) : ToolRun := ⟨t.id, t.tool, t.arguments, .running, none⟩

/-- The run once it has ended in this way. -/
def closed (t : ToolRun) (e : Completion) : ToolRun :=
  ⟨t.id, t.tool, t.arguments, if e.success then .success else .failed, e.summary⟩

/-- A queue of runs, of which the first are closed by the completions there are. -/
def served : List ToolRun → List Completion → List ToolRun
  | [], _ => []
  | t :: ts, [] => t :: ts
  | t :: ts, e :: es => t.closed e :: served ts es

variable {tool : String} {ts : List ToolRun} {es : List Completion}

theorem served_nil (ts : List ToolRun) : served ts [] = ts := by cases ts <;> rfl

theorem isRunning_closed (t : ToolRun) (e : Completion) : (t.closed e).isRunning = false :=
  isRunning_finish t e.success e.summary

/-- A run that begins goes to the end of the queue. -/
theorem served_concat (h : es.length ≤ ts.length) (t : ToolRun) :
    served (ts ++ [t]) es = served ts es ++ [t] := by
  induction ts generalizing es with
  | nil =>
    rw [List.length_nil, Nat.le_zero, List.length_eq_zero_iff] at h
    rw [h]
    rfl
  | cons u ts ih =>
    cases es with
    | nil => rfl
    | cons e es => exact congrArg (u.closed e :: ·) (ih (Nat.le_of_succ_le_succ h))

/-- The run that ends next is the first that is not closed. -/
theorem finishFirst_served (h : ∀ t ∈ ts, t.isRunningAs tool = true) (success : Bool)
    (summary : Option String) :
    finishFirst tool success summary (served ts es) =
      ts[es.length]?.map fun t => (t.finish success summary, served ts (es ++ [⟨success, summary⟩])) := by
  induction ts generalizing es with
  | nil => rfl
  | cons t ts ih =>
    obtain ⟨ht, hts⟩ := List.forall_mem_cons.mp h
    cases es with
    | nil =>
      have hs : served (t :: ts) ([] ++ [⟨success, summary⟩]) = t.finish success summary :: ts :=
        congrArg (t.finish success summary :: ·) (served_nil ts)
      rw [served, finishFirst, ht, if_pos rfl]
      exact congrArg (fun q => some (t.finish success summary, q)) hs.symm
    | cons e es =>
      have hclosed : (t.closed e).isRunningAs tool = false := by
        rw [isRunningAs, isRunning_closed, Bool.false_and]
      have hlater := @ih es hts
      rw [served, finishFirst, hclosed, if_neg Bool.false_ne_true, hlater, List.length_cons,
        List.getElem?_cons_succ, Option.map_map]
      rfl

/-- Behind runs that are not running stands the first that is not closed. -/
theorem served_eq_append (h : ∀ t ∈ ts, t.isRunning = true) {before after : List ToolRun} {t : ToolRun}
    (hs : served ts es = before ++ t :: after) (hb : ∀ u ∈ before, u.isRunning = false)
    (ht : t.isRunning = true) : before.length = es.length ∧ ts[es.length]? = some t := by
  induction ts generalizing es before with
  | nil => simp [served] at hs
  | cons u ts ih =>
    obtain ⟨hu, hts⟩ := List.forall_mem_cons.mp h
    cases es with
    | nil =>
      cases before with
      | nil => exact ⟨rfl, congrArg some (List.cons.inj hs).1⟩
      | cons v before =>
        have hv := hb v List.mem_cons_self
        rw [← (List.cons.inj hs).1, hu] at hv
        cases hv
    | cons e es =>
      cases before with
      | nil =>
        rw [← (List.cons.inj hs).1, isRunning_closed] at ht
        cases ht
      | cons v before =>
        have hrest := ih hts (List.cons.inj hs).2 fun w hw => hb w (List.mem_cons_of_mem v hw)
        exact ⟨congrArg (· + 1) hrest.1, hrest.2⟩

end ToolRun

namespace Toolbox

variable {tool : String} {b : Toolbox} {log : List (Call × Answer)}

/-- Runs that have just begun are running. -/
theorem isRunning_of_mem_begun {t : ToolRun} (h : t ∈ begun log) : t.isRunning = true := by
  obtain ⟨⟨c, a⟩, -, hc⟩ := List.mem_filterMap.mp h
  cases c <;> cases hc
  rfl

theorem isRunningAs_of_mem_begunAs {t : ToolRun} (h : t ∈ begunAs tool log) :
    t.isRunningAs tool = true := by
  obtain ⟨hm, ht⟩ := List.mem_filter.mp h
  rw [ToolRun.isRunningAs, isRunning_of_mem_begun hm, ht, Bool.and_self]

/-- A toolbox has all runs that began since it was emptied, in order, and each tool is a queue of its own. -/
structure Queued (b : Toolbox) (log : List (Call × Answer)) : Prop where
  matching : b.matching = .oldest
  order : b.runs.map ToolRun.asBegun = begun log
  served : ∀ tool, b.runs.filter (·.tool == tool) = ToolRun.served (begunAs tool log) (completions tool log)
  enough : ∀ tool, (completions tool log).length ≤ (begunAs tool log).length

theorem queued_empty {b : Toolbox} (hm : b.matching = .oldest) (hr : b.runs = []) : Queued b [] where
  matching := hm
  order := by rw [hr]; rfl
  served _ := by rw [hr]; rfl
  enough _ := Nat.le_refl 0

/-- Nothing is ambiguous to a toolbox that ends the oldest run. -/
theorem isAmbiguous_of_oldest (hm : b.matching = .oldest) (tool : String) : b.isAmbiguous tool = false := by
  rw [isAmbiguous, hm]
  rfl

/-- What comes of the end of a tool, as its queue says. -/
theorem Queued.finish_filter (h : Queued b log) (tool : String) (success : Bool)
    (summary : Option String) :
    (b.finish tool success summary).map (fun r => (r.1, r.2.runs.filter (·.tool == tool))) =
      (begunAs tool log)[(completions tool log).length]?.map fun t => (t.finish success summary,
        ToolRun.served (begunAs tool log) (completions tool log ++ [⟨success, summary⟩])) := by
  have hf := @ToolRun.finishFirst_filter tool success summary b.runs
  rw [h.served, ToolRun.finishFirst_served fun t => isRunningAs_of_mem_begunAs] at hf
  rw [finish_of_unambiguous (isAmbiguous_of_oldest h.matching tool), Option.map_map, hf]
  rfl

theorem asBegun_of_finish {b : Toolbox} {success : Bool} {summary : Option String} {r : ToolRun × Toolbox}
    (h : b.finish tool success summary = some r) :
    r.2.runs.map ToolRun.asBegun = b.runs.map ToolRun.asBegun := by
  obtain ⟨before, t, after, hr, -, rfl⟩ := finish_eq_some h
  rw [hr, List.map_append, List.map_append]
  rfl

/-- A run that begins goes to the end of the queue of its tool. -/
theorem Queued.start (h : Queued b log) (id tool : String) (arguments : Json.Members) (a : Answer) :
    Queued (b.start id tool arguments).2 (log ++ [(.start id tool arguments, a)]) := by
  have has : ∀ other, begunAs other (log ++ [(.start id tool arguments, a)]) =
      begunAs other log ++ [ToolRun.start id tool arguments].filter (·.tool == other) :=
    fun other => begunAs_concat other log _
  have hcomp : ∀ other, completions other (log ++ [(.start id tool arguments, a)]) =
      completions other log := fun other => (completions_concat other log _).trans (List.append_nil _)
  refine ⟨h.matching, ?_, fun other => ?_, fun other => ?_⟩
  · rw [begun_concat, ← h.order]
    exact List.map_append
  · have hruns : (b.start id tool arguments).2.runs.filter (·.tool == other) =
        b.runs.filter (·.tool == other) ++ [ToolRun.start id tool arguments].filter (·.tool == other) :=
      List.filter_append _ _
    rw [hruns, hcomp, has, h.served]
    by_cases ht : tool = other
    · have hkeep : [ToolRun.start id tool arguments].filter (·.tool == other) =
          [ToolRun.start id tool arguments] := List.filter_cons_of_pos (beq_iff_eq.mpr ht)
      rw [hkeep, ToolRun.served_concat (h.enough other)]
    · have hskip : [ToolRun.start id tool arguments].filter (·.tool == other) = [] :=
        List.filter_cons_of_neg (by simpa [ToolRun.start] using ht)
      rw [hskip, List.append_nil, List.append_nil]
  · rw [hcomp, has, List.length_append]
    exact (h.enough other).trans (Nat.le_add_right _ _)

/-- Nothing begins where a tool ends. -/
theorem begunAs_finish (other tool : String) (success : Bool) (summary : Option String) (a : Answer)
    (log : List (Call × Answer)) :
    begunAs other (log ++ [(.finish tool success summary, a)]) = begunAs other log :=
  (begunAs_concat other log _).trans (List.append_nil _)

/-- A call after which nothing has ended. -/
theorem Queued.unended (h : Queued b log) (tool : String) (success : Bool) (summary : Option String) :
    Queued b (log ++ [(.finish tool success summary, .ended none)]) := by
  have hcomp : ∀ other, completions other (log ++ [(.finish tool success summary, .ended none)]) =
      completions other log := fun other => (completions_concat other log _).trans (List.append_nil _)
  refine ⟨h.matching, ?_, fun other => ?_, fun other => ?_⟩
  · rw [begun_concat, h.order]
    exact (List.append_nil _).symm
  · rw [begunAs_finish, hcomp]
    exact h.served other
  · rw [begunAs_finish, hcomp]
    exact h.enough other

/-- The end of a run closes the first of its queue that is not closed. -/
theorem Queued.ended (h : Queued b log) {tool : String} {success : Bool} {summary : Option String}
    {r : ToolRun × Toolbox} (hr : b.finish tool success summary = some r) :
    Queued r.2 (log ++ [(.finish tool success summary, .ended (some r.1))]) := by
  have hq := h.finish_filter tool success summary
  rw [hr, Option.map_some] at hq
  obtain ⟨t, ht, hqt⟩ := Option.map_eq_some_iff.mp hq.symm
  obtain ⟨-, hruns⟩ := Prod.mk.inj hqt
  obtain ⟨hlt, -⟩ := List.getElem?_eq_some_iff.mp ht
  refine ⟨(matching_of_finish hr).trans h.matching, ?_, fun other => ?_, fun other => ?_⟩
  · rw [begun_concat, asBegun_of_finish hr, h.order]
    exact (List.append_nil _).symm
  · rw [begunAs_finish, completions_concat, completes]
    by_cases he : tool = other
    · rw [if_pos he, ← he]
      exact hruns.symm
    · have honly : r.2.only other = b.only other := only_of_finish (Ne.symm he) hr
      rw [if_neg he, Option.toList_none, List.append_nil]
      exact (congrArg runs honly).trans (h.served other)
  · rw [begunAs_finish, completions_concat, completes, List.length_append]
    by_cases he : tool = other
    · rw [if_pos he, ← he]
      exact hlt
    · rw [if_neg he]
      exact h.enough other

/-- What a call does to the queues. -/
theorem Queued.perform (h : Queued b log) {c : Call} (hc : c.empties = false) :
    Queued (b.perform c).2 (log ++ [(c, (b.perform c).1)]) := by
  cases c with
  | start id tool arguments => exact h.start id tool arguments _
  | finish tool success summary =>
    cases hr : b.finish tool success summary with
    | none =>
      rw [perform_of_none hr]
      exact h.unended tool success summary
    | some r =>
      rw [perform_of_some hr]
      exact h.ended hr
  | take => cases hc
  | clear => cases hc

/-- **Every tool has a queue of its own.** -/
theorem queued_of_course (calls : List Call) :
    Queued ((empty .oldest).course calls) (sinceEmptied ((empty .oldest).record calls)) := by
  induction calls using List.reverseRecOn with
  | nil => exact queued_empty rfl rfl
  | append_singleton calls c ih =>
    rw [course_concat, record_concat, sinceEmptied, List.rtakeWhile_concat]
    cases hc : c.empties with
    | false => exact ih.perform hc
    | true =>
      have hm : (((empty .oldest).course calls).perform c).2.matching = .oldest :=
        (matching_perform _ c).trans (matching_course _ calls)
      refine queued_empty hm ?_
      cases c with
      | take => rfl
      | clear => rfl
      | _ => cases hc

/-- What a successful end of a tool does: it closes the next of the queue and nothing else. -/
theorem Queued.finish_eq_some (h : Queued b log) {tool : String} {success : Bool}
    {summary : Option String} {r : ToolRun × Toolbox} (hr : b.finish tool success summary = some r) :
    ∃ before t after, b.runs = before ++ t :: after ∧
      (begunAs tool log)[(completions tool log).length]? = some t ∧
      (before.filter (·.tool == tool)).length = (completions tool log).length ∧
      r = (t.closed ⟨success, summary⟩,
        { b with runs := before ++ t.closed ⟨success, summary⟩ :: after }) := by
  rw [finish_of_unambiguous (isAmbiguous_of_oldest h.matching tool)] at hr
  obtain ⟨q, hq, rfl⟩ := Option.map_eq_some_iff.mp hr
  obtain ⟨before, t, after, hruns, hbefore, ht, rfl⟩ := ToolRun.finishFirst_eq_some hq
  have hq : ToolRun.served (begunAs tool log) (completions tool log) =
      before.filter (·.tool == tool) ++ t :: after.filter (·.tool == tool) := by
    have hcons : (t :: after).filter (·.tool == tool) = t :: after.filter (·.tool == tool) :=
      List.filter_cons_of_pos (beq_iff_eq.mpr (ToolRun.tool_of_isRunningAs ht))
    rw [← h.served, hruns, List.filter_append, hcons]
  have hended : ∀ u ∈ before.filter (·.tool == tool), u.isRunning = false := by
    intro u hu
    obtain ⟨hm, htool⟩ := List.mem_filter.mp hu
    have hn := hbefore u hm
    rwa [ToolRun.isRunningAs, htool, Bool.and_true] at hn
  have hrunning : t.isRunning = true := (Bool.and_eq_true_iff.mp ht).1
  have hbegun : ∀ u ∈ begunAs tool log, u.isRunning = true :=
    fun u hu => isRunning_of_mem_begun (List.mem_of_mem_filter hu)
  obtain ⟨hlen, hnext⟩ := ToolRun.served_eq_append hbegun hq hended hrunning
  exact ⟨before, t, after, hruns, hnext, hlen, rfl⟩

/-- **The first run of a tool to begin is the first to end.** At any time the runs are those that began since
  the toolbox was last emptied, in order and with what they began with, and the runs of one tool are its
  queue: closed one after another by the ends that there were of it, the rest running and nothing said of
  them. A tool can end if and only if more of its runs began than ended. The end closes the next of the
  queue, tells how it went, and touches no other run. If no run matches, nothing changes. -/
theorem queued_course (calls : List Call) :
    let b := (empty .oldest).course calls
    let log := sinceEmptied ((empty .oldest).record calls)
    b.runs.map ToolRun.asBegun = begun log ∧
    ∀ tool, b.runs.filter (·.tool == tool) = ToolRun.served (begunAs tool log) (completions tool log) ∧
      ∀ success summary,
        ((b.finish tool success summary).isSome ↔
          (completions tool log).length < (begunAs tool log).length) ∧
        (∀ r, b.finish tool success summary = some r → ∃ before t after, b.runs = before ++ t :: after ∧
          (begunAs tool log)[(completions tool log).length]? = some t ∧
          (before.filter (·.tool == tool)).length = (completions tool log).length ∧
          r = (t.closed ⟨success, summary⟩,
            { b with runs := before ++ t.closed ⟨success, summary⟩ :: after })) ∧
        (b.finish tool success summary = none →
          b.perform (.finish tool success summary) = (.ended none, b)) := by
  intro b log
  have h : Queued b log := queued_of_course calls
  refine ⟨h.order, fun tool => ⟨h.served tool, fun success summary => ⟨?_, ?_, perform_of_none⟩⟩⟩
  · have hq := congrArg Option.isSome (h.finish_filter tool success summary)
    rw [Option.isSome_map, Option.isSome_map] at hq
    rw [hq]
    simp
  · exact fun r => h.finish_eq_some

/-- Two runs of a tool after the toolbox was cleared, beside another tool: the second ends after the first. -/
theorem queued_course_of_two :
    let calls : List Call := [.start "0" "a" [], .clear, .start "1" "a" [], .start "2" "b" [],
      .start "3" "a" [("k", .null)], .finish "c" true none, .finish "a" false (some "x")]
    let b := (empty .oldest).course calls
    let log := sinceEmptied ((empty .oldest).record calls)
    let first : ToolRun := ⟨"1", "a", [], .failed, some "x"⟩
    let other : ToolRun := ⟨"2", "b", [], .running, none⟩
    let second : ToolRun := ⟨"3", "a", [("k", .null)], .running, none⟩
    (b.runs = [first, other, second] ∧ b.runs.map ToolRun.asBegun = begun log) ∧
    (b.finish "a" true none = some (second.closed ⟨true, none⟩,
        { b with runs := [first, other, second.closed ⟨true, none⟩] }) ∧
      (completions "a" log).length < (begunAs "a" log).length) ∧
    (b.finish "c" true none = none ∧ b.perform (.finish "c" true none) = (.ended none, b)) := by
  intro calls b log first other second
  obtain ⟨horder, hqueue⟩ := queued_course calls
  have hended : b.finish "a" true none = some (second.closed ⟨true, none⟩,
    { b with runs := [first, other, second.closed ⟨true, none⟩] }) := by decide
  have hnone : b.finish "c" true none = none := by decide
  refine ⟨⟨by decide, horder⟩, ⟨hended, ?_⟩, hnone, ((hqueue "c").2 true none).2.2 hnone⟩
  exact ((hqueue "a").2 true none).1.mp (by rw [hended]; rfl)

end Toolbox

end Converse
