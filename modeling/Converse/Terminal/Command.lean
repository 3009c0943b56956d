import Converse.Text.Blank
import Converse.Text.Lowercase

/-
  What the user types at the prompt: a message, or a command, which starts with a slash.
  Only the first word of a command counts, without regard to letter case.
-/

namespace Converse

inductive Command
  | clear
  | retry
  | state
  | exit
  | help
  | unknown (word : String)
deriving DecidableEq, Repr

namespace Command

/-- The names of each command. -/
def names : List (String × Command) :=
  [("help", .help), ("h", .help), ("?", .help),
    ("clear", .clear), ("c", .clear),
    ("retry", .retry), ("r", .retry),
    ("state", .state), ("s", .state),
    ("quit", .exit), ("exit", .exit), ("q", .exit)]

def ofWord (word : String) : Command := (names.lookup word).getD (.unknown word)

/-- The command of a line, if it is one. -/
def ofLine (line : String) : Option Command :=
  match Text.trim line.toList with
  | '/' :: rest => some (ofWord (String.ofList (Text.lowercase (Text.firstWord rest))))
  | _ => none

def helpText : String :=
  String.intercalate "\n" [
    "Available commands:",
    "  /help, /h, /?        Show this help message",
    "  /retry, /r           Resend the last message after a retryable error",
    "  /state, /s           Print the conversation state as JSON",
    "  /clear, /c           Start a fresh conversation",
    "  /quit, /exit, /q     Exit statline",
    "",
    "Press Ctrl-C while a reply is streaming to stop it."]

end Command

end Converse
