import Converse.Json.Writer
import Converse.Talk.Notice

/-
  Notices as text on a terminal: what goes to the output, and what goes to the error output.
-/

namespace Converse.Terminal

/-- A text cut after `most` characters, with dots where something was cut off. -/
def truncate (s : String) (most : Nat) : String :=
  let cs := s.toList
  if cs.length ≤ most then s else String.ofList (cs.take most ++ ['.', '.', '.'])

/-- A value among the arguments of a tool: a string stands without its quotes. -/
def argumentText : Json → String
  | .string s => s
  | v => v.compact

def argumentsText (arguments : Json.Members) : String :=
  String.intercalate ", " (arguments.map fun m => m.1 ++ "=" ++ argumentText m.2)

/-- What the user can do about an error, if anything. -/
def hint (m : Mishap) (interactive : Bool) : Option String :=
  if m.needsToken then
    some "Verification failed. Provide a fresh token with --token or STATLINE_VERIFICATION_TOKEN."
  else if m.retryable then
    some (if interactive then "Type /retry to send the message again."
      else "The request may succeed if you try again.")
  else none

/-- Text for the output and for the error output. -/
structure Lines where
  output : String
  errors : String
deriving DecidableEq, Repr

namespace Lines

def empty : Lines := ⟨"", ""⟩

def append (a b : Lines) : Lines := ⟨a.output ++ b.output, a.errors ++ b.errors⟩

instance : Append Lines := ⟨append⟩

end Lines

def startedText (t : ToolRun) : String :=
  let arguments := argumentsText t.arguments
  "\n[Running " ++ t.tool
    ++ (if arguments.isEmpty then "" else " (" ++ truncate arguments 80 ++ ")") ++ "...]\n"

def finishedText (t : ToolRun) : String :=
  "[" ++ t.tool ++ (if t.status == .failed then " failed: " else ": ")
    ++ truncate (t.summary.getD "done") 200 ++ "]\n"

def failedText (m : Mishap) (interactive : Bool) : String :=
  "\nError: " ++ m.text ++ "\n"
    ++ (match hint m interactive with
      | some h => h ++ "\n"
      | none => "")

def render (interactive : Bool) : Notice → Lines
  | .delta content => ⟨content, ""⟩
  | .toolStarted t => ⟨startedText t, ""⟩
  | .toolFinished t => ⟨finishedText t, ""⟩
  | .turnFinalized _ => ⟨"\n", ""⟩
  | .turnCancelled _ => ⟨"\n[stopped]\n", ""⟩
  | .turnFailed m => ⟨"", failedText m interactive⟩
  | .cleared => ⟨"Cleared conversation.\n", ""⟩
  | .turnRequested _ => .empty
  | .turnStarted _ => .empty

def renderAll (interactive : Bool) (notices : List Notice) : Lines :=
  notices.foldl (fun lines n => lines ++ render interactive n) .empty

end Converse.Terminal
