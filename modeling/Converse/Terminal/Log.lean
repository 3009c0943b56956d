import Converse.Number.Numeral
import Converse.Talk.Session

/-
  The log: lines with a level and the part of the program that they come from, and the filter that chooses
  among them.
  A filter is a list of directives. Of those whose target starts the name of a line's part, the one with the
  longest target decides.
-/

namespace Converse

namespace Log

inductive Level
  | error
  | warn
  | info
  | debug
  | trace
deriving DecidableEq, Repr

/-- How much has to be wanted for a line of this level to be shown. -/
def Level.rank : Level → Nat
  | .error => 1
  | .warn => 2
  | .info => 3
  | .debug => 4
  | .trace => 5

def Level.name : Level → String
  | .error => "ERROR"
  | .warn => "WARN"
  | .info => "INFO"
  | .debug => "DEBUG"
  | .trace => "TRACE"

/-- The parts of the program that write lines. -/
inductive Part
  | program
  | screen
  | session
  | tools
  | link
deriving DecidableEq, Repr

def Part.name : Part → String
  | .program => "statline"
  | .screen => "statline::ui"
  | .session => "statline_chat::session"
  | .tools => "statline_chat::tools"
  | .link => "statline_stream::client"

structure Line where
  level : Level
  part : Part
  text : String
deriving DecidableEq, Repr

def Line.shown (l : Line) : String := l.level.name ++ " " ++ l.part.name ++ ": " ++ l.text ++ "\n"

/-! ## Lines -/

def bypassed : Line := ⟨.debug, .program, "verification bypassed"⟩

def noToken : Line :=
  ⟨.warn, .program, "no verification token configured; "
    ++ "set STATLINE_VERIFICATION_TOKEN or pass --bypass-verification"⟩

def skipped (count : Nat) : Line :=
  ⟨.warn, .screen, "skipped " ++ toString count ++ " session events"⟩

/-- The lines of something that a session found worth remarking. -/
def linesOf : Remark → List Line
  | .superseded => [⟨.debug, .session, "superseding turn in flight"⟩]
  | .linkRequested => [⟨.debug, .link, "opening chat stream"⟩]
  | .opened => [⟨.debug, .session, "chat stream opened"⟩]
  | .frameDropped =>
    [⟨.warn, .link, "dropping malformed frame"⟩, ⟨.warn, .session, "frame dropped"⟩]
  | .linkFailed => [⟨.debug, .link, "chat stream failed"⟩]
  | .endedSilently => [⟨.warn, .session, "transport ended without a terminal event"⟩]
  | .turnStarted => [⟨.debug, .session, "turn started"⟩]
  | .toolStarted => [⟨.debug, .session, "tool started"⟩]
  | .toolFinished => [⟨.debug, .session, "tool finished"⟩]
  | .toolAmbiguous =>
    [⟨.warn, .tools, "ambiguous completion for concurrently running tool, ignoring"⟩]
  | .toolUnmatched => [⟨.warn, .session, "tool_end without a matching running invocation"⟩]
  | .turnFinalized => [⟨.debug, .session, "turn finalized"⟩]
  | .turnCancelled => [⟨.debug, .session, "turn cancelled"⟩]
  | .turnFailed => [⟨.warn, .session, "turn failed"⟩]
  | .eventIgnored => [⟨.debug, .session, "ignoring event with no turn in flight"⟩]

/-! ## Filters -/

/-- A rule of a filter: lines of the parts whose names start with `target` are shown up to a rank. -/
structure Directive where
  target : List Char
  rank : Nat
deriving DecidableEq, Repr

def lowerAscii (cs : List Char) : List Char := cs.map Char.toLower

def rankNames : List (List Char × Nat) :=
  [("off".toList, 0), ("error".toList, 1), ("warn".toList, 2), ("info".toList, 3),
    ("debug".toList, 4), ("trace".toList, 5)]

/-- The rank of a word: a name of a level, or a number up to five. -/
def rankOf (word : List Char) : Option Nat :=
  (rankNames.lookup (lowerAscii word)).or (Numeral.unsigned 5 word)

def isTargetStart (c : Char) : Bool := c.isAlphanum || c == '_' || c == '-' || c == ':'

/-- A directive: a level alone, a target alone, or a target and a level. -/
def Directive.ofText (cs : List Char) : Option Directive :=
  let target := cs.takeWhile (· != '=')
  if !(target.head?.any isTargetStart) then none
  else match cs.dropWhile (· != '=') with
    | [] =>
      match rankOf cs with
      | some rank => some ⟨[], rank⟩
      | none => some ⟨cs, 5⟩
    | [_] => some ⟨target, 5⟩
    | _ :: word => (rankOf word).map fun rank => ⟨target, rank⟩

/-- The parts of a text between commas, without the empty ones. -/
def parts (s : String) : List (List Char) :=
  (s.toList.splitOn ',').filter (!·.isEmpty)

/-- The directives of a filter; words that are none do not count, and without any directive only errors are
  shown. -/
def directives (s : String) : List Directive :=
  match (parts s).filterMap Directive.ofText with
  | [] => [⟨[], 1⟩]
  | ds => ds

/-- Whether every part of a filter is a directive. -/
def isFilter (s : String) : Bool := (parts s).all fun cs => (Directive.ofText cs).isSome

/-- The rank up to which the lines of a part are shown: the longest target decides, and of equal ones the
  last. -/
def rankFor (ds : List Directive) (part : Part) : Nat :=
  ((ds.filter fun d => d.target.isPrefixOf part.name.toList).foldl
    (fun best d => if best.target.length ≤ d.target.length then d else best) ⟨[], 0⟩).rank

def shows (ds : List Directive) (l : Line) : Bool := l.level.rank ≤ rankFor ds l.part

/-- The filter in force: the one for a wordy run, else the environment's if it is in order, else the settled
  one. -/
def filterOf (verbose : Bool) (environment settled : Option String) : List Directive :=
  if verbose then directives "statline=debug"
  else match environment with
    | some s => directives (if isFilter s then s else settled.getD "warn")
    | none => directives (settled.getD "warn")

end Log

end Converse
