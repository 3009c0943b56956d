import Converse.Terminal.Live
import Converse.Terminal.Program
import Std.Async.DNS
import Std.Async.Signal
import Std.Async.TCP

/-
  The program itself: it reads arguments, environment, settings file and terminal, and keeps the connection of
  the turn under way. What is to be done is decided elsewhere.
-/

namespace Converse.Main

open Std.Async Std.Net

/-! ## Writing -/

/-- A console, and how many remarks of its session the log has seen. -/
structure Screen where
  console : Console
  logged : Nat
  filter : List Log.Directive

def writeLines (lines : Terminal.Lines) : IO Unit := do
  let output ← IO.getStdout
  output.putStr lines.output
  output.flush
  (← IO.getStderr).putStr lines.errors

def writeLog (filter : List Log.Directive) (lines : List Log.Line) : IO Unit := do
  for line in lines.filter (Log.shows filter) do
    (← IO.getStderr).putStr line.shown

namespace Screen

/-- Writes out what is new. -/
def write (s : Screen) : IO Screen := do
  let remarks := s.console.session.journal.remarks
  writeLog s.filter ((remarks.drop s.logged).flatMap Log.linesOf)
  writeLines s.console.shown
  return { s with console := Live.drained s.console, logged := remarks.length }

def update (s : Screen) (f : Console → Console) : IO Screen := do
  let now ← Std.Time.Timestamp.now
  write { s with console := f (Live.setClock now.toMillisecondsSinceUnixEpoch.val s.console) }

def isIdle (s : Screen) : Bool := s.console.session.phase.isIdle

end Screen

/-! ## The connection -/

def addressOf (n : Nat) : IPAddr :=
  .v4 (.ofParts (.ofNat (n / 0x1000000)) (.ofNat (n / 0x10000)) (.ofNat (n / 0x100)) (.ofNat n))

def longAddressOf (pieces : List Nat) : IPAddr :=
  let piece (i : Nat) : UInt16 := .ofNat (pieces[i]?.getD 0)
  .v6 (.ofParts (piece 0) (piece 1) (piece 2) (piece 3) (piece 4) (piece 5) (piece 6) (piece 7))

/-- The addresses of a host. -/
def addressesOf : Url.Host → Async (List IPAddr)
  | .address n => return [addressOf n]
  | .longAddress pieces => return [longAddressOf pieces]
  | .name cs => return (← DNS.getAddrInfo (String.ofList cs) "").toList

def socketAddress (port : Nat) : IPAddr → SocketAddress
  | .v4 a => .v4 ⟨a, .ofNat port⟩
  | .v6 a => .v6 ⟨a, .ofNat port⟩

/-- A connection over which the request was sent, to the first address that answers. -/
def connect (request : Http.Request) : List IPAddr → Async (Option TCP.Socket.Client)
  | [] => return none
  | address :: rest => do
    try
      let socket ← TCP.Socket.Client.mk
      socket.connect (socketAddress (request.url.port.getD 80) address)
      socket.send (ByteArray.mk request.wire.toArray)
      return some socket
    catch _ => connect request rest

def openConnection (request : Http.Request) : Async (Option TCP.Socket.Client) := do
  if request.url.scheme != "http".toList then return none
  try connect request (← addressesOf request.url.host) catch _ => return none

/-- What comes next while a turn is under way. -/
inductive Happening
  | bytes (b : List UInt8)
  | closed
  | interrupted

def next (socket : TCP.Socket.Client) (key : Signal.Waiter) : Async Happening := do
  try
    Selectable.one #[
      .case (socket.recvSelector 4096) fun r => return match r with
        | some b => .bytes b.toList
        | none => .closed,
      .case key.selector fun _ => return .interrupted]
  catch _ => return .closed

/-- Follows the turn under way; `received` has come so far and gave `passed` deliveries. -/
partial def attend (url : Url) (socket : TCP.Socket.Client) (key : Signal.Waiter)
    (received : List UInt8) (passed : Nat) (s : Screen) : Async Screen := do
  if s.isIdle then return s
  let feed (closed : Bool) (received : List UInt8) : Async (Nat × Screen) := do
    let items := Live.deliveries url closed received
    return (items.length, ← s.update (Live.feed · (items.drop passed)))
  match ← next socket key with
  | .interrupted => attend url socket key received passed (← s.update Live.interrupt)
  | .closed => return (← feed true received).2
  | .bytes b =>
    let (passed, s) ← feed false (received ++ b)
    attend url socket key (received ++ b) passed s

/-- Opens the link of the turn under way and follows the turn to its end. -/
def follow (service : Service) (s : Screen) : Async Screen := do
  match Live.request? service s.console with
  | none => return s
  | some request =>
    match Network.obstacle ⟨request.url, []⟩ request.url with
    | some trouble => s.update (Live.feed · (Reception.failing trouble).feed.items)
    | none =>
      match ← openConnection request with
      | none => s.update (Live.feed · (Network.reception request.url none).feed.items)
      | some socket =>
        let key ← Signal.Waiter.mk .sigint true
        let s ← attend request.url socket key [] 0 s
        key.stop
        return s

/-- Does what a line asks for, and follows the turn that this may start. -/
def perform (service : Service) (request : Console.Request) (s : Screen) : IO Screen := do
  let s ← s.update (·.perform request)
  if s.isIdle then return s else (follow service s).block

/-! ## The terminal -/

/-- The bytes of one line, the line feed among them; none at the end of the input. -/
partial def readLine (input : IO.FS.Stream) (front : List UInt8) : IO (List UInt8) := do
  match (← input.read 1).toList with
  | [] => return front
  | b :: _ => if b == 0x0A then return front ++ [b] else readLine input (front ++ [b])

/-- The prompt, again and again. -/
partial def converse (service : Service) (input : IO.FS.Stream) (s : Screen) : IO UInt32 := do
  let s ← s.update (·.print "> ")
  match ← readLine input [] with
  | [] =>
    discard (s.update (·.print "\n"))
    return 0
  | bytes =>
    match Typed.ofBytes bytes with
    | .unreadable fault =>
      discard (s.update (·.printError ("Error: " ++ fault.message ++ "\n")))
      return 1
    | .line line =>
      let request := Console.Request.ofLine line
      if request == .command .exit then return 0
      converse service input (← perform service request s)

/-! ## The run -/

def fileAt (path : String) : IO PreferencesFile := do
  try return .bytes (← IO.FS.readBinFile path).toList
  catch
    | .noFileOrDirectory .. => return .absent
    | _ => return .directory

def writeFile (path : String) (bytes : List UInt8) : IO Unit := do
  IO.FS.createDirAll (String.ofList (path.toList.reverse.dropWhile (· != '/')).reverse)
  IO.FS.writeBinFile path (ByteArray.mk bytes.toArray)

def surroundings : IO Surroundings := do
  return {
    token := ← IO.getEnv "STATLINE_VERIFICATION_TOKEN"
    logFilter := ← IO.getEnv "RUST_LOG"
    configPath := ← IO.getEnv "STATLINE_CONFIG_PATH"
    configHome := ← IO.getEnv "XDG_CONFIG_HOME"
    home := ← IO.getEnv "HOME"
    accountHome := "." }

def finish (r : Report) : IO UInt32 := do
  writeLines r.shown
  match r.exit with
  | .code n => return .ofNat n
  | .waits => return 1

def talk (s : Surroundings) (file : PreferencesFile) (o : Options) : IO UInt32 := do
  let (p, fault) := file.load
  let setup := Setup.of o p s
  writeLines (Program.warning fault)
  writeLog setup.filter setup.opening
  match setup.service.check with
  | .error e =>
    writeLines (Program.complaint e)
    return 1
  | .ok _ =>
    let seed ← IO.rand 0 (Nat.pow 2 122 - 1)
    let mint : Mint := ⟨fun n => Live.identity (seed + n), 0, 0⟩
    let session := Session.create setup.matching (Live.transport setup.service) mint
    let screen (interactive : Bool) : Screen := ⟨.create session interactive none, 0, setup.filter⟩
    match o.message with
    | some message =>
      let s ← perform setup.service (.message message) (screen false)
      return if s.console.session.mishap.isSome then 1 else 0
    | none => converse setup.service (← IO.getStdin) (screen true)

def run (arguments : List String) : IO UInt32 := do
  let s ← surroundings
  let file ← fileAt s.preferencesPath
  match Options.ofArguments arguments with
  | .error stop => finish (Program.stopped file stop)
  | .ok o =>
    if !o.createPreferences then talk s file o
    else
      let r := Program.createPreferences s file
      try
        if let (.bytes content, false) := (r.file, file.isThere) then
          writeFile s.preferencesPath content
        finish r
      catch e =>
        writeLines ⟨"", "Error creating config: " ++ toString e ++ "\n"⟩
        return 1

end Converse.Main

def main (arguments : List String) : IO UInt32 := Converse.Main.run arguments
