import Converse.Text.Utf8
import Converse.Toml.Reader
import Converse.Toml.Writer

/-
  What the user has settled for good, and the file that keeps it.
  Loading takes a file as a whole or not at all: one that breaks a rule anywhere leaves nothing set.
-/

namespace Converse

structure Preferences where
  baseUrl : Option String
  token : Option String
  /-- Whether requests go without a token. -/
  bypass : Option Bool
  /-- Whether a tool is taken for finished only where it is clear which run of it is meant. -/
  strict : Option Bool
  logFilter : Option String
deriving DecidableEq, Repr

namespace Preferences

def unset : Preferences := ⟨none, none, none, none, none⟩

/-- The address used where none is given. -/
def defaultUrl : String := "http://localhost:8000"

/-- What a new file holds. -/
def initial : Preferences := ⟨some defaultUrl, none, some false, some false, some "warn"⟩

def url (p : Preferences) : String := p.baseUrl.getD defaultUrl

/-- The token: the one settled, else the one of the environment if that is not empty. -/
def tokenOr (p : Preferences) (fallback : Option String) : Option String :=
  p.token.or (fallback.filter fun t => !t.isEmpty)

/-! ## As text -/

/-- The text of a setting, if it is there and a text; nothing at all if it is something else. -/
def textAt (entries : Toml.Entries) (key : String) : Option (Option String) :=
  match entries.lookup key with
  | none => some none
  | some (.text s) => some (some s)
  | some _ => none

/-- The truth value of a setting, if it is there and one; nothing at all if it is something else. -/
def flagAt (entries : Toml.Entries) (key : String) : Option (Option Bool) :=
  match entries.lookup key with
  | none => some none
  | some (.flag b) => some (some b)
  | some _ => none

/-- The settings among entries; other keys do not matter. -/
def ofEntries (entries : Toml.Entries) : Option Preferences := do
  some { baseUrl := ← textAt entries "base_url"
         token := ← textAt entries "verification_token"
         bypass := ← flagAt entries "bypass_verification"
         strict := ← flagAt entries "strict_tool_matching"
         logFilter := ← textAt entries "log_filter" }

def ofText (s : String) : Option Preferences := (Toml.read? s).bind ofEntries

def textLine (key : String) (value : Option String) : List Char :=
  (value.map fun s => Toml.writtenLine key (Toml.writtenText s)).getD []

def flagLine (key : String) (value : Option Bool) : List Char :=
  (value.map fun b => Toml.writtenLine key (Toml.writtenFlag b)).getD []

/-- The text that keeps settings: a line for each that is set. -/
def text (p : Preferences) : String :=
  String.ofList (textLine "base_url" p.baseUrl ++ textLine "verification_token" p.token
    ++ flagLine "bypass_verification" p.bypass ++ flagLine "strict_tool_matching" p.strict
    ++ textLine "log_filter" p.logFilter)

def exampleText : String :=
  String.intercalate "\n" [
    "# statline configuration file",
    "# Place at ~/.config/statline/config.toml (Linux/Mac) or %APPDATA%\\statline\\config.toml (Windows)",
    "",
    "# Chat backend",
    "base_url = \"http://localhost:8000\"",
    "",
    "# Human-verification token (optional - STATLINE_VERIFICATION_TOKEN also works)",
    "# verification_token = \"...\"",
    "",
    "# Skip verification entirely (local development backends only)",
    "bypass_verification = false",
    "",
    "# When the same tool runs concurrently, ignore completions that cannot be",
    "# matched unambiguously instead of completing the oldest invocation",
    "strict_tool_matching = false",
    "",
    "# Log filter used when RUST_LOG is unset",
    "log_filter = \"warn\"",
    ""]

end Preferences

/-! ## The file -/

/-- What stands where the settings are kept. -/
inductive PreferencesFile
  | absent
  /-- Nothing, and nothing can be put there. -/
  | blocked
  | directory
  | bytes (content : List UInt8)
deriving DecidableEq, Repr

namespace PreferencesFile

/-- Why a file was not used. -/
inductive Fault
  | unreadable
  | malformed
deriving DecidableEq, Repr

def Fault.message : Fault → String
  | .unreadable => "Warning: Failed to read config file: stream did not contain valid UTF-8"
  | .malformed => "Warning: Failed to parse config file: TOML parse error"

def isThere : PreferencesFile → Bool
  | .absent => false
  | .blocked => false
  | _ => true

/-- The settings of a file, and why it was not used. -/
def load : PreferencesFile → Preferences × Option Fault
  | .absent => (.unset, none)
  | .blocked => (.unset, none)
  | .directory => (.unset, some .unreadable)
  | .bytes content =>
    match Text.Utf8.read content with
    | .error _ => (.unset, some .unreadable)
    | .ok s =>
      match Preferences.ofText s with
      | some p => (p, none)
      | none => (.unset, some .malformed)

/-- The file after settings were saved, if they can be. -/
def save (p : Preferences) : PreferencesFile → Option PreferencesFile
  | .blocked => none
  | .directory => none
  | _ => some (.bytes (Text.Utf8.encode p.text))

/-- The file after a new one was wanted: one that is there stays. -/
def create (f : PreferencesFile) : Option PreferencesFile :=
  if f.isThere then some f else f.save .initial

end PreferencesFile

end Converse
