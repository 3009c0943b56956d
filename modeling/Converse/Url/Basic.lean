import Converse.Url.Host

/-
  Absolute URLs that name a host.
  Reading puts a URL into its one normal form: lower case scheme and host, no default port, no dot
  segments, and percent encoding of what may not stand for itself. A name and password before the host are
  read over.
-/

namespace Converse

structure Url where
  scheme : List Char
  host : Url.Host
  /-- The port, unless it is the usual one of the scheme. -/
  port : Option Nat
  path : List Char
  query : Option (List Char)
  fragment : Option (List Char)
deriving DecidableEq, Repr

namespace Url

/-- The schemes whose URLs always name a host, with their usual ports. -/
def usualPorts : List (List Char × Nat) :=
  [("http".toList, 80), ("https".toList, 443), ("ws".toList, 80), ("wss".toList, 443),
    ("ftp".toList, 21)]

def fileScheme : List Char := "file".toList

def isSpecial (scheme : List Char) : Bool :=
  (usualPorts.lookup scheme).isSome || scheme == fileScheme

def isControl (c : Char) : Bool := c.toNat ≤ 0x20

def isLineChar (c : Char) : Bool := c == '\t' || c == '\n' || c == '\r'

/-- The text without control characters around it and without line ends and tabs in it. -/
def clean (cs : List Char) : List Char :=
  ((cs.dropWhile isControl).reverse.dropWhile isControl).reverse.filter (!isLineChar ·)

def isSchemeChar (c : Char) : Bool := c.isAlphanum || c == '+' || c == '-' || c == '.'

/-- The scheme, in lower case, and what follows its colon. -/
def splitScheme (cs : List Char) : Option (List Char × List Char) :=
  match cs.takeWhile isSchemeChar, cs.dropWhile isSchemeChar with
  | c :: scheme, ':' :: rest =>
    if c.isAlpha then some ((c :: scheme).map Char.toLower, rest) else none
  | _, _ => none

def isSlash (special : Bool) (c : Char) : Bool := c == '/' || (special && c == '\\')

/-- Characters that end the part with the host. -/
def endsHost (special : Bool) (c : Char) : Bool := isSlash special c || c == '?' || c == '#'

/-- The text after the slashes that introduce a host. A scheme that is special needs none. -/
def afterSlashes (scheme cs : List Char) : Option (List Char) :=
  if scheme == fileScheme then
    match cs with
    | a :: b :: rest => if isSlash true a && isSlash true b then some rest else none
    | _ => none
  else if isSpecial scheme then some (cs.dropWhile (isSlash true))
  else match cs with
    | '/' :: '/' :: rest => some rest
    | _ => none

/-- What follows the last `@`. -/
def afterUser (cs : List Char) : List Char :=
  if cs.contains '@' then (cs.reverse.takeWhile (· != '@')).reverse else cs

/-- The host before a colon outside brackets, and what follows it. -/
def splitHost (inBrackets : Bool) : List Char → List Char × Option (List Char)
  | [] => ([], none)
  | c :: rest =>
    if c == ':' && !inBrackets then ([], some rest)
    else
      let r := splitHost (if c == '[' then true else if c == ']' then false else inBrackets) rest
      (c :: r.1, r.2)

/-- A port, none if it is not written or the usual one. -/
def readPort (scheme : List Char) : Option (List Char) → Option (Option Nat)
  | none => some none
  | some cs =>
    if cs.all Char.isDigit then
      let n := Numeral.value cs
      if 65535 < n then none
      else if cs.isEmpty || usualPorts.lookup scheme == some n then some none
      else some (some n)
    else none

/-! ## Paths -/

def isSingleDot (cs : List Char) : Bool := ["." , "%2e"].contains (String.ofList (cs.map Char.toLower))

def isDoubleDot (cs : List Char) : Bool :=
  ["..", ".%2e", "%2e.", "%2e%2e"].contains (String.ofList (cs.map Char.toLower))

/-- The segments of a path after those before it: dot segments are followed, not kept. -/
def followSegments (sofar : List (List Char)) : List (List Char) → List (List Char)
  | [] => sofar
  | [s] =>
    if isDoubleDot s then sofar.dropLast ++ [[]]
    else if isSingleDot s then sofar ++ [[]]
    else sofar ++ [percentEncode staysInPath s]
  | s :: rest =>
    if isDoubleDot s then followSegments sofar.dropLast rest
    else if isSingleDot s then followSegments sofar rest
    else followSegments (sofar ++ [percentEncode staysInPath s]) rest

def readPath (special : Bool) (cs : List Char) : List Char :=
  match cs with
  | [] => if special then ['/'] else []
  | c :: rest =>
    let body := if isSlash special c then rest else c :: rest
    (followSegments [] (splitOn (isSlash special) body)).flatMap ('/' :: ·)

/-! ## Whole URLs -/

def isFileHost (cs : List Char) : Bool :=
  !cs.isEmpty && cs != "localhost".toList
    && !(match cs with
      | [a, b] => a.isAlpha && (b == ':' || b == '|')
      | _ => false)

/-- The host and the port of the part before the path. -/
def readAuthority (scheme cs : List Char) : Option (Host × Option Nat) :=
  if scheme == fileScheme then
    if isFileHost cs then (Host.read true cs).map fun h => (h, none) else none
  else do
    let (host, port) := splitHost false (afterUser cs)
    let host ← if host.isEmpty then none else Host.read (isSpecial scheme) host
    return (host, ← readPort scheme port)

/-- The URL that a text writes, if it is absolute and names a host. -/
def ofChars (cs : List Char) : Option Url := do
  let (scheme, rest) ← splitScheme (clean cs)
  let special := isSpecial scheme
  let rest ← afterSlashes scheme rest
  let (host, port) ← readAuthority scheme (rest.takeWhile (!endsHost special ·))
  let rest := rest.dropWhile (!endsHost special ·)
  let path := rest.takeWhile fun c => c != '?' && c != '#'
  let rest := rest.dropWhile fun c => c != '?' && c != '#'
  let query := match rest with
    | '?' :: q => some (percentEncode (staysInQuery special) (q.takeWhile (· != '#')))
    | _ => none
  let fragment := match rest.dropWhile (· != '#') with
    | '#' :: f => some (percentEncode staysInFragment f)
    | _ => none
  return { scheme, host, port, path := readPath special path, query, fragment }

def ofString (s : String) : Option Url := ofChars s.toList

/-- What a request for the URL asks the host for. -/
def target (u : Url) : String :=
  String.ofList (u.path ++ (match u.query with
    | some q => '?' :: q
    | none => []))

def text (u : Url) : String :=
  String.ofList u.scheme ++ "://" ++ String.ofList u.host.chars
    ++ (match u.port with
      | some n => ":" ++ toString n
      | none => "")
    ++ u.target
    ++ (match u.fragment with
      | some f => "#" ++ String.ofList f
      | none => "")

/-- Whether two URLs lead to the same server. -/
def sameServer (u v : Url) : Bool := u.scheme == v.scheme && u.host == v.host && u.port == v.port

end Url

end Converse
