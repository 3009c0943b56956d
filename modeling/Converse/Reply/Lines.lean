import Converse.Reply.Frame

/-
  The frames of an event stream.
  The stream is lines of text. A line is a field, a comment or empty; an empty line ends a frame, and a frame
  that the text does not end is lost. A frame without data is passed over.
-/

namespace Converse.Reply.Lines

/-- The lines of a text, the characters of the current line given last first. A carriage return at the very
  end may be half a line end, so it ends no line. -/
def linesFrom (line : List Char) : List Char → List (List Char)
  | [] => []
  | ['\r'] => []
  | '\r' :: '\n' :: rest => line.reverse :: linesFrom [] rest
  | '\r' :: c :: rest => line.reverse :: linesFrom [] (c :: rest)
  | '\n' :: rest => line.reverse :: linesFrom [] rest
  | c :: rest => linesFrom (c :: line) rest

/-- The complete lines of a text, without a byte order mark at its start. -/
def lines : List Char → List (List Char)
  | '\uFEFF' :: rest => linesFrom [] rest
  | cs => linesFrom [] cs

/-- The name and the value of a field; one blank after the colon is not part of the value. -/
def fieldOf (line : List Char) : List Char × List Char :=
  match line.dropWhile (· != ':') with
  | ':' :: ' ' :: value => (line.takeWhile (· != ':'), value)
  | ':' :: value => (line.takeWhile (· != ':'), value)
  | _ => (line, [])

/-- A frame that is being read: its name and the values of its data fields. -/
structure Block where
  name : List Char
  data : List (List Char)

def Block.empty : Block := ⟨[], []⟩

def Block.add (b : Block) (field : List Char × List Char) : Block :=
  if field.1 == "event".toList then { b with name := field.2 }
  else if field.1 == "data".toList then { b with data := b.data ++ [field.2] }
  else b

/-- The frame of a block that was ended, unless it has no data. -/
def Block.frame (b : Block) : Option Frame :=
  if b.data.isEmpty then none
  else some
    { name := if b.name.isEmpty then Frame.defaultName else String.ofList b.name
      data := String.ofList (List.intercalate ['\n'] b.data) }

/-- The frames of lines that follow a block under way. -/
def framesFrom (b : Block) : List (List Char) → List Frame
  | [] => []
  | [] :: rest => b.frame.toList ++ framesFrom .empty rest
  | line :: rest => framesFrom (b.add (fieldOf line)) rest

/-- The frames of a text, as far as it goes. -/
def frames (text : String) : List Frame := framesFrom .empty (lines text.toList)

end Converse.Reply.Lines
