import Converse.Http.Message
import Converse.Number.Numeral
import Converse.Text.Blank
import Converse.Text.Utf8
import Converse.Url.Host

/-
  Messages as bytes on a connection, in the first version of HTTP.
  A response is read from what has come so far. Its body ends after a stated number of bytes, with an empty
  chunk, or with the connection.
-/

namespace Converse.Http

/-! ## Requests -/

def lineEnd : List UInt8 := [0x0D, 0x0A]

def Header.wire (h : Header) : List UInt8 :=
  Text.Utf8.encode h.name ++ Text.Utf8.encode ": " ++ h.value ++ lineEnd

def portText (url : Url) : String :=
  match url.port with
  | some n => ":" ++ toString n
  | none => ""

namespace Request

/-- The headers that only the connection needs. -/
def wireHeaders (r : Request) : List Header :=
  [⟨"host", Text.Utf8.encode (String.ofList r.url.host.chars ++ portText r.url)⟩,
    ⟨"content-length", Text.Utf8.encode (toString r.body.utf8ByteSize)⟩,
    ⟨"connection", Text.Utf8.encode "close"⟩]

def wire (r : Request) : List UInt8 :=
  Text.Utf8.encode (r.method ++ " " ++ r.url.target ++ " HTTP/1.1") ++ lineEnd
    ++ (r.headers ++ r.wireHeaders).flatMap Header.wire ++ lineEnd ++ Text.Utf8.encode r.body

end Request

/-! ## Responses -/

/-- The line that bytes start with, without its end, and the bytes after it. -/
def takeLine : List UInt8 → Option (List UInt8 × List UInt8)
  | [] => none
  | b :: rest =>
    if b == 0x0A then some ([], rest)
    else if b == 0x0D && rest.head? == some 0x0A then some ([], rest.drop 1)
    else (takeLine rest).map fun r => (b :: r.1, r.2)

/-- The lines up to the first empty one, and the bytes after that. -/
def takeHead : Nat → List UInt8 → Option (List (List UInt8) × List UInt8)
  | 0, _ => none
  | fuel + 1, bytes => do
    let (line, rest) ← takeLine bytes
    if line.isEmpty then some ([], rest)
    else
      let (lines, rest) ← takeHead fuel rest
      some (line :: lines, rest)

def headerOfLine (line : List UInt8) : Header :=
  ⟨Text.Utf8.readLoosely (line.takeWhile (· != 0x3A)),
    Response.trimValue ((line.dropWhile (· != 0x3A)).drop 1)⟩

/-- The status in the first line of a response. -/
def statusOfLine (line : List UInt8) : Option Nat :=
  match Url.splitOn (· == ' ') (Text.Utf8.readLoosely line).toList with
  | _ :: code :: _ => Numeral.natural code
  | _ => none

/-- The chunks that have come so far, and whether the empty one was among them. -/
def takeChunks : Nat → List UInt8 → List (List UInt8) × Bool
  | 0, _ => ([], false)
  | fuel + 1, bytes =>
    match takeLine bytes with
    | none => ([], false)
    | some (line, rest) =>
      let digits := (Text.trim (Text.Utf8.readLoosely line).toList).takeWhile (· != ';')
      match Url.radixValue 16 (digits.takeWhile (!Text.isBlank ·)) with
      | none => ([], false)
      | some 0 => ([], true)
      | some size =>
        if rest.length < size then ([rest], false)
        else
          let r := takeChunks fuel ((rest.drop size).drop lineEnd.length)
          (rest.take size :: r.1, r.2)

/-- How the length of a body is known. -/
inductive Framing
  | length (n : Nat)
  | chunks
  /-- The body lasts as long as the connection. -/
  | connection
deriving DecidableEq, Repr

def Framing.ofHeaders (headers : List Header) : Framing :=
  let textAt (name : String) : Option (List Char) :=
    ((Header.first? headers name).bind Header.textOf).map Text.trim
  match textAt "transfer-encoding", (textAt "content-length").bind Numeral.natural with
  | some cs, _ => if cs.map Char.toLower == "chunked".toList then .chunks else .connection
  | none, some n => .length n
  | none, none => .connection

/-- The pieces of a body that have come so far, and whether it is whole. -/
def Framing.read (framing : Framing) (closed : Bool) (bytes : List UInt8) : List (List UInt8) × Bool :=
  match framing with
  | .length n => ([bytes.take n], n ≤ bytes.length)
  | .chunks => takeChunks (bytes.length + 1) bytes
  | .connection => ([bytes], closed)

/-- The response in the bytes that have come so far, once its head is complete. Responses that only say that
  another one follows are skipped. -/
def Response.ofWire (closed : Bool) : Nat → List UInt8 → Option Response
  | 0, _ => none
  | fuel + 1, bytes => do
    let (lines, rest) ← takeHead (bytes.length + 1) bytes
    let status ← statusOfLine (← lines.head?)
    if status < 200 then Response.ofWire closed fuel rest
    else
      let headers := (lines.drop 1).map headerOfLine
      let (pieces, whole) := (Framing.ofHeaders headers).read closed rest
      some ⟨status, headers, pieces, if whole then .complete else if closed then .broken else .never⟩

end Converse.Http
