import Converse.Talk.Backlog
import Converse.Talk.Session
import Converse.Terminal.Command
import Converse.Terminal.Render
import Converse.Text.Utf8

/-
  A session at a terminal.
  After every step of a turn the console shows what the session has announced since it last looked. The user
  types lines; each is a message, which is sent and followed to the end of its turn, or a command.
-/

namespace Converse

/-- A line as it was typed, or why it is none. -/
inductive Typed
  | line (s : String)
  | unreadable (fault : Text.Utf8.Fault)
deriving DecidableEq, Repr

namespace Typed

def ofBytes (bytes : List UInt8) : Typed :=
  match Text.Utf8.read bytes with
  | .ok s => .line s
  | .error fault => .unreadable fault

/-- Cuts bytes after each line feed; `front` came before them on the same line. -/
def cut (front : List UInt8) : List UInt8 → List (List UInt8)
  | [] => if front.isEmpty then [] else [front]
  | b :: rest => if b == 0x0A then (front ++ [b]) :: cut [] rest else cut (front ++ [b]) rest

/-- The lines in what was typed. -/
def lines (bytes : List UInt8) : List Typed := (cut [] bytes).map ofBytes

end Typed

structure Console where
  session : Session
  interactive : Bool
  /-- How many notices of the session have been looked at. -/
  looked : Nat
  /-- How many of them were lost before that. -/
  lost : Nat
  shown : Terminal.Lines
  /-- The interrupt key is pressed once, when the output ends in this text. -/
  interruptAt : Option String

namespace Console

def create (session : Session) (interactive : Bool) (interruptAt : Option String) : Console :=
  ⟨session, interactive, 0, 0, .empty, interruptAt⟩

/-- How many notices are kept for the console. -/
def capacity : Nat := 256

/-- Shows what the session announced since the last look. -/
def refresh (c : Console) : Console :=
  let notices := c.session.journal.notices
  let r := Backlog.look capacity (notices.drop c.looked)
  { c with
    looked := notices.length
    lost := c.lost + r.1
    shown := c.shown ++ Terminal.renderAll c.interactive r.2 }

def print (c : Console) (s : String) : Console := { c with shown := c.shown ++ ⟨s, ""⟩ }

def printError (c : Console) (s : String) : Console := { c with shown := c.shown ++ ⟨"", s⟩ }

/-- Whether the interrupt key is pressed now. -/
def isInterrupted (c : Console) : Bool :=
  c.interruptAt.any fun s => s.toList.isSuffixOf c.shown.output.toList

/-- Follows the turn under way, at most `fuel` steps. Pressing the interrupt key while the turn waits stops
  the turn. -/
def followFor : Nat → Console → Console
  | 0, c => c
  | fuel + 1, c =>
    match c.session.step with
    | (.nothing, s) => { c with session := s }.refresh
    | (.applied, s) => followFor fuel { c with session := s }.refresh
    | (.waiting, _) =>
      if c.isInterrupted then
        followFor fuel { c with session := c.session.signalStop, interruptAt := none }
      else c

/-- Follows the turn under way until it ends, or until it would wait for ever. -/
def follow (c : Console) : Console := followFor (c.session.stepBound + 2) c

/-- Sends a message and follows its turn. -/
def say (c : Console) (text : String) : Console :=
  { c with session := c.session.send text }.follow

/-- Carries out a command. -/
def obey (c : Console) : Command → Console
  | .clear => { c with session := c.session.clear }.refresh
  | .retry =>
    match c.session.retry with
    | (true, s) => { c with session := s }.follow
    | (false, s) => { c with session := s }.print "Nothing to retry.\n"
  | .state => c.print (c.session.snapshot.toJson.pretty ++ "\n")
  | .help => c.print (Command.helpText ++ "\n")
  | .exit => c
  | .unknown word =>
    c.print ("Unknown command: /" ++ word ++ "\nType /help for available commands.\n")

/-- What a line asks for. -/
inductive Request
  | nothing
  | message (text : String)
  | command (command : Command)
deriving DecidableEq, Repr

def Request.ofLine (line : String) : Request :=
  let text := Text.trimmed line
  if text.isEmpty then .nothing
  else match Command.ofLine text with
    | some c => .command c
    | none => .message text

def perform (c : Console) : Request → Console
  | .nothing => c
  | .message text => c.say text
  | .command command => c.obey command

/-- How a run of the program ends. -/
inductive Exit
  | code (n : Nat)
  /-- It does not end: a turn waits for ever. -/
  | waits
deriving DecidableEq, Repr

/-- Takes typed lines at the prompt, up to the end of the input or a command to leave. -/
def converse : List Typed → Console → Exit × Console
  | [], c => (.code 0, (c.print "> ").print "\n")
  | .unreadable fault :: _, c =>
    (.code 1, (c.print "> ").printError ("Error: " ++ fault.message ++ "\n"))
  | .line line :: rest, c =>
    let request := Request.ofLine line
    if request == .command .exit then (.code 0, c.print "> ")
    else
      let c := (c.print "> ").perform request
      if c.session.phase.isIdle then converse rest c else (.waits, c)

/-- Sends a single message; the run fails if an error is left. -/
def once (message : String) (c : Console) : Exit × Console :=
  let c := c.say message
  (if !c.session.phase.isIdle then .waits else .code (if c.session.mishap.isSome then 1 else 0), c)

end Console

end Converse
