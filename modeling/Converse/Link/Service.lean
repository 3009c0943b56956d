import Converse.Http.MediaType
import Converse.Link.Relay
import Converse.Reply.Question

/-
  The service that answers: where it is, how the user is known to it, and what a request to it looks like.
-/

namespace Converse

structure Service where
  baseUrl : String
  chatPath : String
  /-- The header that carries the token. -/
  tokenHeader : String
  token : Option String
deriving DecidableEq, Repr

namespace Service

/-- The service at an address, with nothing else said. -/
def ofUrl (baseUrl : String) : Service := ⟨baseUrl, "/chat", "X-Verification-Token", none⟩

/-- Why no link can be opened. -/
inductive Fault
  | transfer (reason : String)
  | stream (reason : String)
  | header (reason : String)
  | settings (reason : String)
deriving DecidableEq, Repr

def Fault.message : Fault → String
  | .transfer r => "HTTP error: " ++ r
  | .stream r => "SSE error: " ++ r
  | .header r => "Invalid header: " ++ r
  | .settings r => "Invalid configuration: " ++ r

/-- The address of requests. -/
def chatUrl (s : Service) : String :=
  let base := String.ofList (s.baseUrl.toList.reverse.dropWhile (· == '/')).reverse
  if s.chatPath.toList.head? == some '/' then base ++ s.chatPath else base ++ "/" ++ s.chatPath

/-- Whether a text can be the name of a header. -/
def isHeaderName (s : String) : Bool :=
  !s.isEmpty && s.utf8ByteSize ≤ 65535 && s.toList.all Http.isTokenChar

/-- Whether bytes can be the value of a header. -/
def isHeaderValue (bytes : List UInt8) : Bool :=
  bytes.all fun b => b == 0x09 || (0x20 ≤ b && b != 0x7F)

/-- Checks the settings before any request is made. -/
def check (s : Service) : Except Fault Unit :=
  if (Text.trim s.baseUrl.toList).isEmpty then .error (.settings "base_url must not be empty")
  else if !isHeaderName s.tokenHeader then
    .error (.header (s.tokenHeader ++ ": invalid HTTP header name"))
  else .ok ()

/-- Puts a header in the place of those of its name. -/
def insert (h : Http.Header) (headers : List Http.Header) : List Http.Header :=
  headers.filter (fun k => Http.lowerName k.name != Http.lowerName h.name) ++ [h]

/-- Adds a header unless there is one of its name. -/
def supply (headers : List Http.Header) (h : Http.Header) : List Http.Header :=
  if (Http.Header.first? headers h.name).isSome then headers else headers ++ [h]

def header (name value : String) : Http.Header := ⟨name, Text.Utf8.encode value⟩

/-- The headers of a request; the token may take the place of any of them. -/
def headers (s : Service) : Except Fault (List Http.Header) :=
  let accept := header "accept" "text/event-stream"
  let rest (hs : List Http.Header) : List Http.Header :=
    [header "content-type" "application/json", header "user-agent" "statline/0.1.0"].foldl supply
      (hs ++ [accept])
  match s.token with
  | none => .ok (rest [accept])
  | some token =>
    if isHeaderValue (Text.Utf8.encode token) then
      .ok (rest (insert (header s.tokenHeader token) [accept]))
    else .error (.header "failed to parse header value")

/-- The request that sends a question. -/
def request (s : Service) (q : Question) : Except Fault Http.Request :=
  match s.headers, Url.ofString s.chatUrl with
  | .error e, _ => .error e
  | .ok _, none => .error (.stream "Failed to create event source: expected a cloneable request")
  | .ok headers, some url =>
    .ok { method := "POST", url := url, headers := headers, body := q.toJson.compact }

end Service

/-! ## What answers -/

/-- A server at one address, and the responses it will give, in order; none for a connection that it closes
  without one. -/
structure Network where
  server : Url
  answers : List (Option Http.Response)
deriving DecidableEq, Repr

namespace Network

/-- Why a request reaches nobody. -/
def obstacle (n : Network) (url : Url) : Option Trouble :=
  if url.scheme != "http".toList && url.scheme != "https".toList then
    some (.connection ("builder error for url (" ++ url.text ++ ")"))
  else if !url.sameServer n.server then
    some (.connection ("error sending request for url (" ++ url.text ++ ")"))
  else none

/-- What comes back for a request that reached the server. -/
def reception (url : Url) : Option Http.Response → Reception
  | some r => .ofResponse r.arrived
  | none => .failing (.connection ("error sending request for url (" ++ url.text ++ ")"))

/-- The response of a server that has none left. -/
def exhausted : Http.Response := .bare 500

/-- The first thing that comes back for a request. -/
def receive (n : Network) (url : Url) : Reception :=
  match n.obstacle url with
  | some t => .failing t
  | none => reception url (n.answers.headD (some exhausted))

/-- The links that a service can open over the network. -/
def transport (n : Network) (s : Service) : Transport :=
  match s.request ⟨"", none⟩ with
  | .error e => ⟨[], .refused e.message⟩
  | .ok r =>
    match n.obstacle r.url with
    | some t => ⟨[], .accepted (Reception.failing t).feed⟩
    | none =>
      ⟨n.answers.map fun a => .accepted (reception r.url a).feed,
        .accepted (reception r.url (some exhausted)).feed⟩

/-- The requests that reach the server for the questions asked. -/
def requests (n : Network) (s : Service) (questions : List Question) : List Http.Request :=
  questions.filterMap fun q =>
    match s.request q with
    | .error _ => none
    | .ok r => if (n.obstacle r.url).isNone then some r else none

end Network

end Converse
