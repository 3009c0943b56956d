import Converse.Json.Decode

/-
  The tools that the server runs during one turn.
  The end of a run names the tool and not the run, so the run that ends is looked for among the running
  ones of that name: the oldest, or under the strict rule the only one.
-/

namespace Converse

inductive ToolRun.Status
  | running
  | success
  | failed
deriving DecidableEq, Repr

structure ToolRun where
  id : String
  tool : String
  arguments : Json.Members
  status : ToolRun.Status
  summary : Option String
deriving DecidableEq, Repr

/-- Which run ends when the server says that a tool has ended. -/
inductive Matching
  | oldest
  | strict
deriving DecidableEq, Repr

namespace ToolRun

def start (id tool : String) (arguments : Json.Members) : ToolRun :=
  ⟨id, tool, arguments, .running, none⟩

def isRunning (t : ToolRun) : Bool := t.status == .running

def isRunningAs (tool : String) (t : ToolRun) : Bool := t.isRunning && t.tool == tool

/-- The run once it has ended. -/
def finish (t : ToolRun) (success : Bool) (summary : Option String) : ToolRun :=
  { t with status := if success then .success else .failed, summary := summary }

/-- The first run of that name that is running, ended, and the list with it. -/
def finishFirst (tool : String) (success : Bool) (summary : Option String) :
    List ToolRun → Option (ToolRun × List ToolRun)
  | [] => none
  | t :: rest =>
    if t.isRunningAs tool then some (t.finish success summary, t.finish success summary :: rest)
    else (finishFirst tool success summary rest).map fun r => (r.1, t :: r.2)

theorem isRunning_finish (t : ToolRun) (success : Bool) (summary : Option String) :
    (t.finish success summary).isRunning = false := by
  cases success <;> rfl

/-- The run that ends is the first of its name that is running, and the others stay as they are. -/
theorem finishFirst_eq_some {tool : String} {success : Bool} {summary : Option String}
    {runs : List ToolRun} {r : ToolRun × List ToolRun}
    (h : finishFirst tool success summary runs = some r) :
    ∃ before t after, runs = before ++ t :: after ∧ (∀ u ∈ before, u.isRunningAs tool = false) ∧
      t.isRunningAs tool = true ∧
      r = (t.finish success summary, before ++ t.finish success summary :: after) := by
  induction runs generalizing r with
  | nil => simp [finishFirst] at h
  | cons t runs ih =>
    unfold finishFirst at h
    split at h
    · next ht =>
      cases h
      exact ⟨[], t, runs, rfl, by simp, ht, rfl⟩
    · next ht =>
      obtain ⟨q, hq, rfl⟩ := Option.map_eq_some_iff.mp h
      obtain ⟨before, u, after, rfl, hb, hu, rfl⟩ := ih hq
      refine ⟨t :: before, u, after, rfl, ?_, hu, rfl⟩
      intro v hv
      rcases List.mem_cons.mp hv with rfl | hv
      · exact Bool.eq_false_iff.mpr ht
      · exact hb v hv

end ToolRun

/-- The runs of the current turn, in the order they started. -/
structure Toolbox where
  matching : Matching
  runs : List ToolRun
deriving DecidableEq, Repr

namespace Toolbox

def empty (matching : Matching) : Toolbox := ⟨matching, []⟩

def runningCount (b : Toolbox) : Nat := (b.runs.filter ToolRun.isRunning).length

def start (b : Toolbox) (id tool : String) (arguments : Json.Members) : ToolRun × Toolbox :=
  let t := ToolRun.start id tool arguments
  (t, { b with runs := b.runs ++ [t] })

/-- Whether the rule leaves open which run of that name has ended. -/
def isAmbiguous (b : Toolbox) (tool : String) : Bool :=
  b.matching == .strict && 1 < (b.runs.filter (ToolRun.isRunningAs tool)).length

/-- The run that ends, and the runs after it; nothing if no run matches. -/
def finish (b : Toolbox) (tool : String) (success : Bool) (summary : Option String) :
    Option (ToolRun × Toolbox) :=
  if b.isAmbiguous tool then none
  else (ToolRun.finishFirst tool success summary b.runs).map fun r => (r.1, { b with runs := r.2 })

/-- The run that ends was running under that name, and the others stay as they are. -/
theorem finish_eq_some {b : Toolbox} {tool : String} {success : Bool} {summary : Option String}
    {r : ToolRun × Toolbox} (h : b.finish tool success summary = some r) :
    ∃ before t after, b.runs = before ++ t :: after ∧ t.isRunningAs tool = true ∧
      r = (t.finish success summary,
        { b with runs := before ++ t.finish success summary :: after }) := by
  unfold finish at h
  split at h
  · simp at h
  · obtain ⟨q, hq, rfl⟩ := Option.map_eq_some_iff.mp h
    obtain ⟨before, t, after, hr, -, ht, rfl⟩ := ToolRun.finishFirst_eq_some hq
    exact ⟨before, t, after, hr, ht, rfl⟩

def clear (b : Toolbox) : Toolbox := { b with runs := [] }

end Toolbox

/-! ## As JSON -/

def Matching.choices : List (String × Matching) := [("oldest_by_name", .oldest), ("strict", .strict)]

def Matching.name : Matching → String
  | .oldest => "oldest_by_name"
  | .strict => "strict"

def Matching.decode : Json.Decoder Matching := Json.choice choices

namespace ToolRun

def Status.name : Status → String
  | .running => "running"
  | .success => "success"
  | .failed => "failed"

def Status.decode : Json.Decoder Status :=
  Json.choice [("running", .running), ("success", .success), ("failed", .failed)]

def toJson (t : ToolRun) : Json :=
  .object ([("id", .string t.id), ("tool_name", .string t.tool), ("arguments", .object t.arguments),
    ("status", .string t.status.name)]
    ++ (match t.summary with
      | some s => [("result_summary", .string s)]
      | none => []))

def shape : Json.Shape ToolRun :=
  { title := "struct ToolExecution"
    blank := start "" "" []
    fields := [
      .of "id" .always Json.text fun v t => { t with id := v },
      .of "tool_name" .always Json.text fun v t => { t with tool := v },
      .of "arguments" .always Json.freeMap fun v t => { t with arguments := v },
      .of "status" .always Status.decode fun v t => { t with status := v },
      .of "result_summary" .never (Json.optional Json.text) fun v t => { t with summary := v }] }

def decode : Json.Decoder ToolRun := shape.decode

end ToolRun

end Converse
