/-
  What the program finds around it: variables of the environment, and where settings are kept.
-/

namespace Converse

structure Surroundings where
  /-- STATLINE_VERIFICATION_TOKEN -/
  token : Option String
  /-- RUST_LOG -/
  logFilter : Option String
  /-- STATLINE_CONFIG_PATH -/
  configPath : Option String
  /-- XDG_CONFIG_HOME -/
  configHome : Option String
  /-- HOME -/
  home : Option String
  /-- The home of the account, used where no variable names one. -/
  accountHome : String
deriving DecidableEq, Repr

namespace Surroundings

/-- A name inside a directory. -/
def join (directory name : String) : String :=
  if directory.isEmpty || directory.toList.getLast? == some '/' then directory ++ name
  else directory ++ "/" ++ name

def homePath (s : Surroundings) : String := (s.home.filter (!·.isEmpty)).getD s.accountHome

/-- Where programs keep settings; a variable that is no absolute path does not count. -/
def configRoot (s : Surroundings) : String :=
  (s.configHome.filter (·.toList.head? == some '/')).getD (join s.homePath ".config")

/-- The directory of the program's own settings. -/
def configDirectory (s : Surroundings) : String := join s.configRoot "statline"

/-- The path of the settings file. -/
def preferencesPath (s : Surroundings) : String :=
  s.configPath.getD (join s.configDirectory "config.toml")

end Surroundings

end Converse
