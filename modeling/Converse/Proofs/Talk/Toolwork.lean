import Converse.Proofs.Talk.Likeness

/-
  The tools of a turn, one name at a time.

  A toolbox is asked for one thing after another (`Call`), and what comes of each is put on record. What happens
  to the runs of one tool depends on the calls that concern this tool and on no other: `only_course` says it of
  the runs, `record_only` of what comes of the calls. `separate_course` is the result, with identities left
  open, since two toolboxes give out different ones.
-/

namespace Converse

namespace Toolbox

/-- What can be asked of a toolbox. A run that starts has the identity it is given. -/
inductive Call
  | start (id tool : String) (arguments : Json.Members)
  | finish (tool : String) (success : Bool) (summary : Option String)
  /-- Hands all runs over. -/
  | take
  | clear
deriving DecidableEq, Repr

/-- What comes of a call. -/
inductive Answer
  | started (t : ToolRun)
  /-- The run that ended, if one matched. -/
  | ended (t : Option ToolRun)
  | taken (ts : List ToolRun)
  | cleared
deriving DecidableEq, Repr

def perform (b : Toolbox) : Call → Answer × Toolbox
  | .start id tool arguments =>
    let r := b.start id tool arguments
    (.started r.1, r.2)
  | .finish tool success summary =>
    match b.finish tool success summary with
    | some r => (.ended (some r.1), r.2)
    | none => (.ended none, b)
  | .take => (.taken b.runs, b.clear)
  | .clear => (.cleared, b.clear)

/-- The toolbox after calls in order. -/
def course (b : Toolbox) (calls : List Call) : Toolbox := calls.foldl (fun b c => (b.perform c).2) b

/-- The calls, each with what came of it. -/
def record (b : Toolbox) : List Call → List (Call × Answer)
  | [] => []
  | c :: rest => (c, (b.perform c).1) :: (b.perform c).2.record rest

theorem course_concat (b : Toolbox) (calls : List Call) (c : Call) :
    b.course (calls ++ [c]) = ((b.course calls).perform c).2 := List.foldl_append

theorem record_concat (b : Toolbox) (calls : List Call) (c : Call) :
    b.record (calls ++ [c]) = b.record calls ++ [(c, ((b.course calls).perform c).1)] := by
  induction calls generalizing b with
  | nil => rfl
  | cons d calls ih => exact congrArg ((d, (b.perform d).1) :: ·) (ih (b.perform d).2)

theorem perform_of_some {b : Toolbox} {tool : String} {success : Bool} {summary : Option String}
    {r : ToolRun × Toolbox} (h : b.finish tool success summary = some r) :
    b.perform (.finish tool success summary) = (.ended (some r.1), r.2) := by
  simp only [perform, h]

theorem perform_of_none {b : Toolbox} {tool : String} {success : Bool} {summary : Option String}
    (h : b.finish tool success summary = none) :
    b.perform (.finish tool success summary) = (.ended none, b) := by
  simp only [perform, h]

theorem matching_of_finish {b : Toolbox} {tool : String} {success : Bool} {summary : Option String}
    {r : ToolRun × Toolbox} (h : b.finish tool success summary = some r) : r.2.matching = b.matching := by
  obtain ⟨_, _, _, -, -, rfl⟩ := finish_eq_some h
  rfl

/-- The rule by which runs end stays the same. -/
theorem matching_perform (b : Toolbox) (c : Call) : (b.perform c).2.matching = b.matching := by
  cases c with
  | finish tool success summary =>
    cases h : b.finish tool success summary with
    | none => rw [perform_of_none h]
    | some r =>
      rw [perform_of_some h]
      exact matching_of_finish h
  | _ => rfl

theorem matching_course (b : Toolbox) (calls : List Call) : (b.course calls).matching = b.matching := by
  induction calls generalizing b with
  | nil => rfl
  | cons c calls ih => exact (ih (b.perform c).2).trans (matching_perform b c)

/-! ## What a call is about -/

/-- The tool that a call names. -/
def Call.tool? : Call → Option String
  | .start _ tool _ => some tool
  | .finish tool _ _ => some tool
  | .take | .clear => none

/-- A call concerns the tool that it names, or every tool if it names none. -/
def Call.concerns (tool : String) (c : Call) : Bool := c.tool?.all (· == tool)

def Call.finishes (tool : String) : Call → Bool
  | .finish t _ _ => t == tool
  | _ => false

/-- The toolbox with the runs of one tool only. -/
def only (tool : String) (b : Toolbox) : Toolbox := { b with runs := b.runs.filter (·.tool == tool) }

end Toolbox

/-! ## The runs of one tool -/

namespace ToolRun

variable {tool other : String} {success : Bool} {summary : Option String}

theorem isRunningAs_of_ne {t : ToolRun} (h : t.tool ≠ tool) : t.isRunningAs tool = false := by
  simp [isRunningAs, h]

theorem isRunningAs_finish (t : ToolRun) :
    (t.finish success summary).isRunningAs tool = false := by
  rw [isRunningAs, isRunning_finish, Bool.false_and]

theorem tool_of_isRunningAs {t : ToolRun} (h : t.isRunningAs tool = true) : t.tool = tool := by
  by_contra hn
  rw [isRunningAs_of_ne hn] at h
  cases h

/-- The run that ends is found among the runs of its tool. -/
theorem finishFirst_filter (runs : List ToolRun) :
    finishFirst tool success summary (runs.filter (·.tool == tool)) =
      (finishFirst tool success summary runs).map fun r => (r.1, r.2.filter (·.tool == tool)) := by
  induction runs with
  | nil => rfl
  | cons t runs ih =>
    by_cases ht : t.tool = tool
    · have htool : (t.finish success summary).tool = tool := ht
      rw [List.filter_cons_of_pos (by simpa using ht), finishFirst, finishFirst, ih]
      cases t.isRunningAs tool with
      | true => simp [htool]
      | false => cases finishFirst tool success summary runs <;> simp [ht]
    · rw [List.filter_cons_of_neg (by simpa using ht), ih, finishFirst, isRunningAs_of_ne ht]
      cases finishFirst tool success summary runs <;> simp [ht]

/-- The runs of other tools stay as they are. -/
theorem filter_of_finishFirst (hn : other ≠ tool) {runs : List ToolRun} {r : ToolRun × List ToolRun}
    (h : finishFirst tool success summary runs = some r) :
    r.2.filter (·.tool == other) = runs.filter (·.tool == other) := by
  obtain ⟨before, t, after, rfl, -, ht, rfl⟩ := finishFirst_eq_some h
  have htool : t.tool ≠ other := fun he => hn (he.symm.trans (tool_of_isRunningAs ht))
  have hended : (t.finish success summary).tool ≠ other := htool
  simp [List.filter_append, htool, hended]

/-- Which runs of a tool are running is a matter of its own runs. -/
theorem filter_isRunningAs (tool : String) (runs : List ToolRun) :
    runs.filter (isRunningAs tool) = (runs.filter (·.tool == tool)).filter isRunning := by
  rw [List.filter_filter]
  rfl

end ToolRun

namespace Toolbox

variable {tool other : String} {success : Bool} {summary : Option String} {b c : Toolbox}

/-- Where the rule leaves nothing open, the first run of the tool ends. -/
theorem finish_of_unambiguous (h : b.isAmbiguous tool = false) (success : Bool) (summary : Option String) :
    b.finish tool success summary =
      (ToolRun.finishFirst tool success summary b.runs).map fun r => (r.1, { b with runs := r.2 }) := by
  rw [finish, h, if_neg Bool.false_ne_true]

theorem isAmbiguous_congr (hm : b.matching = c.matching)
    (hr : b.runs.filter (·.tool == tool) = c.runs.filter (·.tool == tool)) :
    b.isAmbiguous tool = c.isAmbiguous tool := by
  unfold isAmbiguous
  rw [ToolRun.filter_isRunningAs, ToolRun.filter_isRunningAs, hm, hr]

theorem filter_only (b : Toolbox) :
    (b.only tool).runs.filter (·.tool == tool) = b.runs.filter (·.tool == tool) := by
  unfold only
  rw [List.filter_filter]
  simp

/-- A tool ends as it would among its own runs only. -/
theorem finish_only (b : Toolbox) (tool : String) (success : Bool) (summary : Option String) :
    (b.only tool).finish tool success summary =
      (b.finish tool success summary).map fun r => (r.1, r.2.only tool) := by
  have ha : (b.only tool).isAmbiguous tool = b.isAmbiguous tool := isAmbiguous_congr rfl (filter_only b)
  have hf : _ = _ := @ToolRun.finishFirst_filter tool success summary b.runs
  unfold finish
  rw [ha]
  unfold only
  rw [hf]
  cases b.isAmbiguous tool with
  | true => rfl
  | false => cases ToolRun.finishFirst tool success summary b.runs <;> rfl

/-- Another tool's end is nothing to the runs of this one. -/
theorem only_of_finish (hn : other ≠ tool) {r : ToolRun × Toolbox}
    (h : b.finish tool success summary = some r) : r.2.only other = b.only other := by
  unfold finish at h
  split at h
  · cases h
  · obtain ⟨q, hq, rfl⟩ := Option.map_eq_some_iff.mp h
    unfold only
    rw [ToolRun.filter_of_finishFirst hn hq]

theorem perform_finish_only (b : Toolbox) (tool : String) (success : Bool) (summary : Option String) :
    (b.only tool).perform (.finish tool success summary) =
      ((b.perform (.finish tool success summary)).1,
        (b.perform (.finish tool success summary)).2.only tool) := by
  have hf := finish_only b tool success summary
  cases h : b.finish tool success summary with
  | none =>
    rw [h] at hf
    rw [perform_of_none h, perform_of_none hf]
  | some r =>
    rw [h] at hf
    rw [perform_of_some h, perform_of_some hf]

theorem only_perform {c : Call} (h : c.concerns tool = true) (b : Toolbox) :
    (b.perform c).2.only tool = ((b.only tool).perform c).2 := by
  cases c with
  | start id t arguments =>
    have ht : t = tool := by simpa [Call.concerns, Call.tool?] using h
    simp [perform, Toolbox.start, only, ToolRun.start, List.filter_append, ht]
  | finish t success summary =>
    have ht : t = tool := by simpa [Call.concerns, Call.tool?] using h
    rw [ht, perform_finish_only]
  | take => rfl
  | clear => rfl

theorem only_perform_of_not {c : Call} (h : ¬ c.concerns tool = true) (b : Toolbox) :
    (b.perform c).2.only tool = b.only tool := by
  cases c with
  | start id t arguments =>
    have ht : t ≠ tool := by simpa [Call.concerns, Call.tool?] using h
    simp [perform, Toolbox.start, only, ToolRun.start, List.filter_append, ht]
  | finish t success summary =>
    have ht : t ≠ tool := by simpa [Call.concerns, Call.tool?] using h
    cases hf : b.finish t success summary with
    | none => rw [perform_of_none hf]
    | some r =>
      rw [perform_of_some hf]
      exact only_of_finish ht.symm hf
  | take => exact absurd rfl h
  | clear => exact absurd rfl h

theorem answer_only {c : Call} (h : c.finishes tool = true) (b : Toolbox) :
    ((b.only tool).perform c).1 = (b.perform c).1 := by
  cases c with
  | finish t success summary =>
    have ht : t = tool := by simpa [Call.finishes] using h
    rw [ht, perform_finish_only]
  | _ => cases h

theorem Call.concerns_of_finishes {c : Call} (h : c.finishes tool = true) : c.concerns tool = true := by
  cases c with
  | finish t success summary => exact h
  | _ => cases h

/-- **The runs of a tool come from the calls that concern it.** -/
theorem only_course (tool : String) (b : Toolbox) (calls : List Call) :
    (b.course calls).only tool = (b.only tool).course (calls.filter (·.concerns tool)) := by
  induction calls generalizing b with
  | nil => rfl
  | cons c calls ih =>
    have hrest := ih (b.perform c).2
    by_cases hc : c.concerns tool = true
    · rw [only_perform hc] at hrest
      rw [List.filter_cons_of_pos hc]
      exact hrest
    · rw [only_perform_of_not hc] at hrest
      rw [List.filter_cons_of_neg hc]
      exact hrest

/-- What comes of the ends of a tool does so as well. -/
theorem record_only (tool : String) (b : Toolbox) (calls : List Call) :
    ((b.only tool).record (calls.filter (·.concerns tool))).filter (·.1.finishes tool) =
      (b.record calls).filter (·.1.finishes tool) := by
  induction calls generalizing b with
  | nil => rfl
  | cons c calls ih =>
    have hrest := ih (b.perform c).2
    by_cases hc : c.concerns tool = true
    · rw [only_perform hc] at hrest
      rw [List.filter_cons_of_pos hc, record, record, List.filter_cons, List.filter_cons, hrest]
      by_cases hf : c.finishes tool = true
      · rw [answer_only hf]
      · simp [hf]
    · have hf : ¬ c.finishes tool = true := mt Call.concerns_of_finishes hc
      rw [only_perform_of_not hc] at hrest
      have hskip : (b.record (c :: calls)).filter (·.1.finishes tool) =
          ((b.perform c).2.record calls).filter (·.1.finishes tool) := List.filter_cons_of_neg hf
      rw [List.filter_cons_of_neg hc, hskip, ← hrest]

/-! ## Ends of two tools -/

/-- The toolbox once a tool has ended, the same as before if no run matched. -/
def afterEnd (tool : String) (success : Bool) (summary : Option String) (b : Toolbox) : Toolbox :=
  (b.perform (.finish tool success summary)).2

end Toolbox

namespace ToolRun

variable {tool other : String} {success success' : Bool} {summary summary' : Option String}

/-- The runs once a tool has ended. -/
def afterEnd (tool : String) (success : Bool) (summary : Option String) (runs : List ToolRun) :
    List ToolRun := ((finishFirst tool success summary runs).map Prod.snd).getD runs

theorem afterEnd_cons (t : ToolRun) (runs : List ToolRun) :
    afterEnd tool success summary (t :: runs) =
      if t.isRunningAs tool then t.finish success summary :: runs
      else t :: afterEnd tool success summary runs := by
  unfold afterEnd
  rw [finishFirst]
  cases t.isRunningAs tool with
  | true => rfl
  | false => cases finishFirst tool success summary runs <;> rfl

/-- The end of one tool does not matter to the end of another. -/
theorem finishFirst_afterEnd (hn : other ≠ tool) (runs : List ToolRun) :
    finishFirst other success' summary' (afterEnd tool success summary runs) =
      (finishFirst other success' summary' runs).map fun r => (r.1, afterEnd tool success summary r.2) := by
  induction runs with
  | nil => rfl
  | cons t runs ih =>
    rw [afterEnd_cons]
    by_cases ht : t.isRunningAs tool = true
    · have hother : t.isRunningAs other = false :=
        isRunningAs_of_ne fun he => hn (he.symm.trans (tool_of_isRunningAs ht))
      rw [if_pos ht, finishFirst, finishFirst, isRunningAs_finish, hother]
      cases finishFirst other success' summary' runs <;> simp [afterEnd_cons, ht]
    · rw [if_neg ht, finishFirst, finishFirst, ih]
      cases t.isRunningAs other with
      | true => simp [afterEnd_cons, isRunningAs_finish]
      | false => cases finishFirst other success' summary' runs <;> simp [afterEnd_cons, ht]

end ToolRun

namespace Toolbox

variable {tool other : String} {success success' : Bool} {summary summary' : Option String}

theorem afterEnd_eq_getD (b : Toolbox) :
    b.afterEnd tool success summary = ((b.finish tool success summary).map Prod.snd).getD b := by
  unfold afterEnd
  cases h : b.finish tool success summary with
  | none => rw [perform_of_none h, Option.map_none, Option.getD_none]
  | some r => rw [perform_of_some h, Option.map_some, Option.getD_some]

theorem afterEnd_eq (b : Toolbox) :
    b.afterEnd tool success summary =
      if b.isAmbiguous tool then b
      else { b with runs := ToolRun.afterEnd tool success summary b.runs } := by
  rw [afterEnd_eq_getD]
  unfold finish ToolRun.afterEnd
  cases b.isAmbiguous tool with
  | true => rfl
  | false => cases ToolRun.finishFirst tool success summary b.runs <;> rfl

theorem isAmbiguous_afterEnd (hn : other ≠ tool) (b : Toolbox) :
    (b.afterEnd tool success summary).isAmbiguous other = b.isAmbiguous other := by
  have hnot : ¬ (Call.finish tool success summary).concerns other = true := by
    simpa [Call.concerns, Call.tool?] using hn.symm
  have honly : (b.afterEnd tool success summary).only other = b.only other := only_perform_of_not hnot b
  exact isAmbiguous_congr (matching_perform b _) (congrArg runs honly)

/-- The ends of two tools do not matter to each other. -/
theorem finish_afterEnd (hn : other ≠ tool) (b : Toolbox) :
    (b.afterEnd tool success summary).finish other success' summary' =
      (b.finish other success' summary').map fun r => (r.1, r.2.afterEnd tool success summary) := by
  have hrest : ∀ r, b.finish other success' summary' = some r →
      r.2.isAmbiguous tool = b.isAmbiguous tool := by
    intro r hr
    have ha := @isAmbiguous_afterEnd other tool success' summary' hn.symm b
    rwa [afterEnd_eq_getD, hr] at ha
  cases ha : b.isAmbiguous tool with
  | true =>
    have hb : b.afterEnd tool success summary = b := by rw [afterEnd_eq, ha, if_pos rfl]
    rw [hb]
    cases hr : b.finish other success' summary' with
    | none => rfl
    | some r =>
      have hr2 : r.2.afterEnd tool success summary = r.2 := by
        rw [afterEnd_eq, hrest r hr, ha, if_pos rfl]
      rw [Option.map_some, hr2]
  | false =>
    have hb : ∀ c : Toolbox, c.isAmbiguous tool = false → c.afterEnd tool success summary =
        { c with runs := ToolRun.afterEnd tool success summary c.runs } := by
      intro c hc
      rw [afterEnd_eq, hc, if_neg Bool.false_ne_true]
    have hother := @isAmbiguous_afterEnd tool other success summary hn b
    cases ho : b.isAmbiguous other with
    | true => simp [finish, hother, ho]
    | false =>
      rw [finish_of_unambiguous ho] at hrest ⊢
      rw [finish_of_unambiguous (hother.trans ho), hb b ha, ToolRun.finishFirst_afterEnd hn]
      cases hr : ToolRun.finishFirst other success' summary' b.runs with
      | none => rfl
      | some r =>
        have hr2 := hb { b with runs := r.2 } ((hrest _ (by rw [hr]; rfl)).trans ha)
        simp [hr2]

/-- **Ends of two tools can be swapped**: the later one gives what it would have given first, and the toolbox
  is the same in the end. -/
theorem perform_swap (hn : other ≠ tool) (b : Toolbox) :
    let f := Call.finish tool success summary
    let g := Call.finish other success' summary'
    (b.perform f).2.perform g = ((b.perform g).1, ((b.perform g).2.perform f).2) := by
  intro f g
  have hg : (b.perform f).2.finish other success' summary' = _ := finish_afterEnd hn b
  cases hr : b.finish other success' summary' with
  | none =>
    rw [hr] at hg
    rw [perform_of_none hg, perform_of_none hr]
  | some r =>
    rw [hr] at hg
    rw [perform_of_some hg, perform_of_some hr]
    rfl

end Toolbox

/-! ## Identities -/

namespace Renaming

variable (w : Renaming)

def toolbox (b : Toolbox) : Toolbox := { b with runs := b.runs.map w.run }

def call : Toolbox.Call → Toolbox.Call
  | .start id tool arguments => .start (w.id id) tool arguments
  | c => c

def answer : Toolbox.Answer → Toolbox.Answer
  | .started t => .started (w.run t)
  | .ended t => .ended (t.map w.run)
  | .taken ts => .taken (ts.map w.run)
  | .cleared => .cleared

def entry (e : Toolbox.Call × Toolbox.Answer) : Toolbox.Call × Toolbox.Answer := (w.call e.1, w.answer e.2)

/-- One identity for everything, which leaves of a run all but its identity. -/
def nameless : Renaming := ⟨fun _ => "", fun time => time⟩

end Renaming

namespace Toolbox

variable (w : Renaming)

theorem perform_rename (b : Toolbox) (c : Call) :
    (w.toolbox b).perform (w.call c) = (w.answer (b.perform c).1, w.toolbox (b.perform c).2) := by
  cases c with
  | start id tool arguments =>
    simp [perform, Toolbox.start, Renaming.call, Renaming.answer, Renaming.toolbox, Renaming.run, ToolRun.start]
  | finish tool success summary =>
    obtain ⟨-, hf⟩ := @finish_rename w b (w.toolbox b) rfl rfl tool success summary
    cases h : b.finish tool success summary with
    | none =>
      rw [h] at hf
      rw [perform_of_none h]
      exact perform_of_none hf
    | some r =>
      rw [h] at hf
      rw [perform_of_some h]
      refine (perform_of_some hf).trans ?_
      obtain ⟨_, _, _, -, -, rfl⟩ := finish_eq_some h
      rfl
  | take => rfl
  | clear => rfl

theorem course_rename (b : Toolbox) (calls : List Call) :
    (w.toolbox b).course (calls.map w.call) = w.toolbox (b.course calls) := by
  induction calls generalizing b with
  | nil => rfl
  | cons c calls ih =>
    have hp : ((w.toolbox b).perform (w.call c)).2 = w.toolbox (b.perform c).2 :=
      congrArg Prod.snd (perform_rename w b c)
    have hrest := ih (b.perform c).2
    rw [← hp] at hrest
    exact hrest

theorem record_rename (b : Toolbox) (calls : List Call) :
    (w.toolbox b).record (calls.map w.call) = (b.record calls).map w.entry := by
  induction calls generalizing b with
  | nil => rfl
  | cons c calls ih =>
    rw [List.map_cons, record, perform_rename, ih]
    rfl

theorem only_rename (tool : String) (b : Toolbox) : (w.toolbox b).only tool = w.toolbox (b.only tool) := by
  unfold only Renaming.toolbox
  rw [List.filter_map]
  rfl

theorem filter_finishes_rename (tool : String) (log : List (Call × Answer)) :
    (log.filter (·.1.finishes tool)).map w.entry = (log.map w.entry).filter (·.1.finishes tool) := by
  have hcall : ∀ c : Call, (w.call c).finishes tool = c.finishes tool := fun c => by cases c <;> rfl
  rw [List.filter_map]
  exact congrArg (List.map w.entry) (List.filter_congr fun e _ => (hcall e.1).symm)

/-! ## Any tool by itself -/

open Renaming (nameless)

/-- **Tools do not interfere.** The runs of a tool are, up to their identities, those of a toolbox that is only
  asked for what concerns this tool, and each end of it gives the same in both. The ends of two tools can be
  swapped, with the same toolbox after them and the same outcomes. -/
theorem separate_course (matching : Matching) (tool : String) {calls others : List Call}
    (h : others.map nameless.call = (calls.filter (·.concerns tool)).map nameless.call) :
    nameless.toolbox (((empty matching).course calls).only tool) =
      nameless.toolbox ((empty matching).course others) ∧
    (((empty matching).record calls).filter (·.1.finishes tool)).map nameless.entry =
      (((empty matching).record others).filter (·.1.finishes tool)).map nameless.entry ∧
    ∀ (b : Toolbox) (other : String) (success success' : Bool) (summary summary' : Option String),
      other ≠ tool →
        let f := Call.finish tool success summary
        let g := Call.finish other success' summary'
        ((b.perform f).2.perform g).2 = ((b.perform g).2.perform f).2 ∧
          ((b.perform f).2.perform g).1 = (b.perform g).1 ∧
          ((b.perform g).2.perform f).1 = (b.perform f).1 := by
  have hempty : (empty matching).only tool = empty matching := rfl
  refine ⟨?_, ?_, ?_⟩
  · calc nameless.toolbox (((empty matching).course calls).only tool)
        = nameless.toolbox ((empty matching).course (calls.filter (·.concerns tool))) := by
          rw [only_course, hempty]
      _ = (nameless.toolbox (empty matching)).course (others.map nameless.call) := by
          rw [h, course_rename]
      _ = nameless.toolbox ((empty matching).course others) := course_rename _ _ _
  · rw [← record_only, hempty, filter_finishes_rename, filter_finishes_rename, ← record_rename,
      ← record_rename, h]
  · intro b other success success' summary summary' hn f g
    have hfg : (b.perform f).2.perform g = _ := perform_swap hn b
    have hgf : (b.perform g).2.perform f = _ := perform_swap hn.symm b
    exact ⟨by rw [hfg], by rw [hfg], by rw [hgf]⟩

/-- Three tools at work, one of them twice, and the calls that concern it with other identities. -/
theorem separate_course_of_three :
    let calls : List Call := [.start "1" "a" [], .start "2" "b" [], .start "3" "a" [],
      .finish "c" true none, .finish "a" true (some "x"), .clear, .start "4" "a" [], .start "5" "b" [],
      .finish "b" false none, .finish "a" false none, .finish "a" true none]
    let others : List Call := [.start "7" "a" [], .start "8" "a" [], .finish "a" true (some "x"), .clear,
      .start "9" "a" [], .finish "a" false none, .finish "a" true none]
    others.map nameless.call = (calls.filter (·.concerns "a")).map nameless.call ∧
    nameless.toolbox (((empty .strict).course calls).only "a") =
      nameless.toolbox ((empty .strict).course others) ∧
    (((empty .strict).record calls).filter (·.1.finishes "a")).map nameless.entry =
      (((empty .strict).record others).filter (·.1.finishes "a")).map nameless.entry ∧
    ("b" ≠ "a" ∧ ((((empty .strict).course (calls.take 8)).perform (.finish "a" true none)).2.perform
        (.finish "b" false none)).1 =
      (((empty .strict).course (calls.take 8)).perform (.finish "b" false none)).1) := by
  intro calls others
  have h : others.map nameless.call = (calls.filter (·.concerns "a")).map nameless.call := by decide
  obtain ⟨hruns, hrecord, hswap⟩ := separate_course .strict "a" h
  have hne : "b" ≠ "a" := by decide
  exact ⟨h, hruns, hrecord, hne, (hswap _ "b" true false none none hne).2.1⟩

end Toolbox

end Converse
