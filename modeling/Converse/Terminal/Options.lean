/-
  The options given on the command line.
  Arguments are taken one by one, and the first that is wrong, or that asks for the version or for help,
  decides. An option is given at most once; a value that starts with a dash has to be attached.
-/

namespace Converse

structure Options where
  baseUrl : Option String
  token : Option String
  /-- A single message to send, without a prompt. -/
  message : Option String
  bypass : Bool
  strict : Bool
  verbose : Bool
  createPreferences : Bool
deriving DecidableEq, Repr

namespace Options

def unset : Options := ⟨none, none, none, false, false, false, false⟩

/-- Options that take a value. -/
inductive Setting
  | baseUrl
  | token
  | message
deriving DecidableEq, Repr

/-- Options that stand for themselves. -/
inductive Flag
  | bypass
  | strict
  | verbose
  | createPreferences
  | version
  | help
deriving DecidableEq, Repr

inductive Name
  | setting (s : Setting)
  | flag (f : Flag)
deriving DecidableEq, Repr

/-- The names after two dashes. -/
def longNames : List (List Char × Name) :=
  [("base-url".toList, .setting .baseUrl), ("token".toList, .setting .token),
    ("command".toList, .setting .message), ("bypass-verification".toList, .flag .bypass),
    ("strict-tools".toList, .flag .strict), ("verbose".toList, .flag .verbose),
    ("init-config".toList, .flag .createPreferences), ("version".toList, .flag .version),
    ("help".toList, .flag .help)]

/-- The names after one dash. -/
def shortNames : List (Char × Name) :=
  [('c', .setting .message), ('v', .flag .verbose), ('V', .flag .version), ('h', .flag .help)]

/-- Why the arguments lead to no run. -/
inductive Stop
  | version
  | help
  | unexpected (argument : String)
  | repeated (s : Setting)
  | repeatedFlag (f : Flag)
  | missingValue (s : Setting)
deriving DecidableEq, Repr

/-- What has been taken so far. -/
structure Reading where
  options : Options
  /-- An option whose value is still to come. -/
  pending : Option Setting
  /-- Whether two dashes ended the options. -/
  ended : Bool
deriving DecidableEq, Repr

namespace Reading

def start : Reading := ⟨.unset, none, false⟩

/-- Gives a setting its value. -/
def give (r : Reading) (s : Setting) (value : String) : Except Stop Reading :=
  let o := r.options
  let fill (old : Option String) (options : Options) : Except Stop Reading :=
    if old.isSome then .error (.repeated s)
    else .ok { r with options := options, pending := none }
  match s with
  | .baseUrl => fill o.baseUrl { o with baseUrl := some value }
  | .token => fill o.token { o with token := some value }
  | .message => fill o.message { o with message := some value }

/-- Raises a flag. -/
def raise (r : Reading) (f : Flag) : Except Stop Reading :=
  let o := r.options
  let set (old : Bool) (options : Options) : Except Stop Reading :=
    if old then .error (.repeatedFlag f) else .ok { r with options := options }
  match f with
  | .bypass => set o.bypass { o with bypass := true }
  | .strict => set o.strict { o with strict := true }
  | .verbose => set o.verbose { o with verbose := true }
  | .createPreferences => set o.createPreferences { o with createPreferences := true }
  | .version => .error .version
  | .help => .error .help

/-- An argument after two dashes; what follows an equals sign in it is a value. -/
def takeLong (r : Reading) (argument : String) (cs : List Char) : Except Stop Reading :=
  match longNames.lookup (cs.takeWhile (· != '=')), cs.dropWhile (· != '=') with
  | some (.setting s), _ :: value => r.give s (String.ofList value)
  | some (.setting s), [] => .ok { r with pending := some s }
  | some (.flag f), [] => r.raise f
  | some (.flag _), _ :: _ => .error (.unexpected argument)
  | none, _ => .error (.unexpected argument)

/-- Letters after one dash; what follows a setting among them is its value. -/
def takeShort (argument : String) : Reading → List Char → Except Stop Reading
  | r, [] => .ok r
  | r, c :: cs =>
    match shortNames.lookup c with
    | some (.flag f) => (r.raise f).bind fun r => takeShort argument r cs
    | some (.setting s) =>
      match cs with
      | [] => .ok { r with pending := some s }
      | '=' :: value => r.give s (String.ofList value)
      | value => r.give s (String.ofList value)
    | none => .error (.unexpected argument)

/-- Takes one argument. -/
def take (r : Reading) (argument : String) : Except Stop Reading :=
  match r.pending, argument.toList with
  | some s, '-' :: _ :: _ => .error (.missingValue s)
  | some s, _ => r.give s argument
  | none, '-' :: c :: cs =>
    if r.ended then .error (.unexpected argument)
    else if c != '-' then takeShort argument r (c :: cs)
    else if cs.isEmpty then .ok { r with ended := true }
    else r.takeLong argument cs
  | none, _ => .error (.unexpected argument)

/-- The options, if none of them waits for its value. -/
def finish (r : Reading) : Except Stop Options :=
  match r.pending with
  | some s => .error (.missingValue s)
  | none => .ok r.options

end Reading

/-- The options that arguments give, or what stops them. -/
def ofArguments (arguments : List String) : Except Stop Options :=
  (arguments.foldlM Reading.take .start).bind Reading.finish

/-! ## Texts -/

def Setting.name : Setting → String
  | .baseUrl => "--base-url <BASE_URL>"
  | .token => "--token <TOKEN>"
  | .message => "--command <COMMAND>"

def Flag.name : Flag → String
  | .bypass => "--bypass-verification"
  | .strict => "--strict-tools"
  | .verbose => "--verbose"
  | .createPreferences => "--init-config"
  | .version => "--version"
  | .help => "--help"

def versionText : String := "statline 0.1.0\n"

def usageText : String := "Usage: statline [OPTIONS]\n"

def helpText : String :=
  String.intercalate "\n" [
    "Terminal client for the statline sports assistant",
    "",
    "Usage: statline [OPTIONS]",
    "",
    "Options:",
    "      --base-url <BASE_URL>  Base URL of the chat backend (default: http://localhost:8000)",
    "      --token <TOKEN>        Human-verification token",
    "      --bypass-verification  Send requests without a verification token",
    "      --strict-tools         Ignore ambiguous completions of concurrently running tools",
    "  -c, --command <COMMAND>    Run in non-interactive mode with a single message",
    "  -v, --verbose              Verbose output",
    "      --init-config          Initialize config file",
    "  -h, --help                 Print help",
    "  -V, --version              Print version",
    ""]

/-- The sentence that says what is wrong with the arguments. -/
def Stop.fault : Stop → String
  | .unexpected argument => "unexpected argument '" ++ argument ++ "' found"
  | .repeated s => "the argument '" ++ s.name ++ "' cannot be used multiple times"
  | .repeatedFlag f => "the argument '" ++ f.name ++ "' cannot be used multiple times"
  | .missingValue s => "a value is required for '" ++ s.name ++ "' but none was supplied"
  | .version => ""
  | .help => ""

def Stop.faultText (s : Stop) : String :=
  "error: " ++ s.fault ++ "\n\n" ++ usageText ++ "\nFor more information, try '--help'.\n"

end Options

end Converse
