import Converse.Link.Service
import Converse.Terminal.Console
import Converse.Terminal.Log
import Converse.Terminal.Options
import Converse.Terminal.Preferences
import Converse.Terminal.Surroundings

/-
  A whole run of the program: from arguments, surroundings, the settings file, what is typed and what answers
  on the network, to what is written, sent and kept.
-/

namespace Converse

/-- What comes of a run. -/
structure Report where
  exit : Console.Exit
  shown : Terminal.Lines
  /-- What the log shows. -/
  log : List Log.Line
  requests : List Http.Request
  file : PreferencesFile

namespace Report

/-- A run that wrote something and ended, and left all else as it was. -/
def written (code : Nat) (shown : Terminal.Lines) (file : PreferencesFile) : Report :=
  ⟨.code code, shown, [], [], file⟩

end Report

/-- What a run that talks goes by. -/
structure Setup where
  service : Service
  matching : Matching
  filter : List Log.Directive
  /-- What the log says before anything is sent. -/
  opening : List Log.Line
deriving DecidableEq, Repr

namespace Setup

/-- The token to send, if any: arguments come before settings, and settings before the environment. -/
def token (o : Options) (p : Preferences) (s : Surroundings) : Option String :=
  o.token.or (p.tokenOr s.token)

def bypasses (o : Options) (p : Preferences) : Bool := o.bypass || p.bypass == some true

def of (o : Options) (p : Preferences) (s : Surroundings) : Setup :=
  { service :=
      { Service.ofUrl (o.baseUrl.getD p.url) with
        token := if bypasses o p then none else token o p s }
    matching := if o.strict || p.strict == some true then .strict else .oldest
    filter := Log.filterOf o.verbose s.logFilter p.logFilter
    opening :=
      if bypasses o p then [Log.bypassed]
      else if (token o p s).isNone then [Log.noToken]
      else [] }

end Setup

/-- Everything that bears on a run. -/
structure World where
  arguments : List String
  surroundings : Surroundings
  file : PreferencesFile
  typed : List Typed
  interruptAt : Option String
  network : Network
  mint : Mint

namespace Program

/-- The run of arguments that lead to no other. -/
def stopped (file : PreferencesFile) : Options.Stop → Report
  | .version => .written 0 ⟨Options.versionText, ""⟩ file
  | .help => .written 0 ⟨Options.helpText, ""⟩ file
  | stop => .written 2 ⟨"", stop.faultText⟩ file

/-- A run that only makes sure that there is a settings file. -/
def createPreferences (s : Surroundings) (file : PreferencesFile) : Report :=
  match file.create with
  | some file =>
    .written 0 ⟨"Config file created at: " ++ s.preferencesPath ++ "\n\nExample config:\n"
      ++ Preferences.exampleText ++ "\n", ""⟩ file
  | none => .written 1 ⟨"", "Error creating config: File exists (os error 17)\n"⟩ file

/-- What is written about a settings file that was not used. -/
def warning (fault : Option PreferencesFile.Fault) : Terminal.Lines :=
  ⟨"", (fault.map fun f => f.message ++ "\n").getD ""⟩

/-- What is written about a service that cannot be used. -/
def complaint (fault : Service.Fault) : Terminal.Lines := ⟨"", "Error: " ++ fault.message ++ "\n"⟩

/-- The log lines of a session at a console. -/
def consoleLines (c : Console) : List Log.Line :=
  c.session.journal.remarks.flatMap Log.linesOf
    ++ (if c.lost == 0 then [] else [Log.skipped c.lost])

/-- A run that talks: a single message, or the lines typed at a prompt. -/
def talk (w : World) (o : Options) : Report :=
  let (p, fault) := w.file.load
  let setup := Setup.of o p w.surroundings
  let chosen (lines : List Log.Line) := (setup.opening ++ lines).filter (Log.shows setup.filter)
  match setup.service.check with
  | .error e => ⟨.code 1, warning fault ++ complaint e, chosen [], [], w.file⟩
  | .ok _ =>
    let session := Session.create setup.matching (w.network.transport setup.service) w.mint
    let (exit, c) := match o.message with
      | some message => (Console.create session false w.interruptAt).once message
      | none => (Console.create session true w.interruptAt).converse w.typed
    ⟨exit, warning fault ++ c.shown, chosen (consoleLines c),
      w.network.requests setup.service c.session.journal.questions, w.file⟩

def run (w : World) : Report :=
  match Options.ofArguments w.arguments with
  | .error stop => stopped w.file stop
  | .ok o => if o.createPreferences then createPreferences w.surroundings w.file else talk w o

end Program

end Converse
