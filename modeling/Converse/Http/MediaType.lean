/-
  The content type of a response: is it an event stream?
  A type is two tokens with a slash between them; parameters follow, each `name=value`. Letter case does not
  count, a suffix after a plus sign is not part of the second token, and a type whose parameters are
  not in order is no type.
-/

namespace Converse.Http

/-- The characters of tokens, which header names consist of as well. -/
def isTokenChar (c : Char) : Bool :=
  c.isAlphanum || "!#$%&*+-.^_`|~".toList.contains c || c.toNat == 0x27

namespace MediaType

def isQuotable (c : Char) : Bool := 31 < c.toNat && c.toNat != 127

/-- What follows a quoted value, after its opening quote. The value is not empty. -/
def afterQuoted : List Char → Option (List Char)
  | c :: rest =>
    if isQuotable c then
      match rest.dropWhile fun c => isQuotable c && c != '"' with
      | '"' :: rest => some (rest.dropWhile (· == ' '))
      | _ => none
    else none
  | [] => none

/-- What follows the value of a parameter and the semicolon after it. -/
def afterValue (cs : List Char) : Option (List Char) :=
  match cs with
  | '"' :: rest =>
    match afterQuoted rest with
    | some [] => some []
    | some (';' :: rest) => some rest
    | _ => none
  | cs =>
    match cs.dropWhile isTokenChar with
    | [] => some []
    | ';' :: rest => if (cs.takeWhile isTokenChar).isEmpty then none else some rest
    | _ => none

/-- Whether a text is a list of parameters; it has at most `fuel` of them. -/
def areParameters : Nat → List Char → Bool
  | _, [] => true
  | 0, _ => false
  | fuel + 1, ' ' :: rest => areParameters fuel rest
  | fuel + 1, cs =>
    match cs.takeWhile isTokenChar, cs.dropWhile isTokenChar with
    | _ :: _, '=' :: rest =>
      match afterValue rest with
      | some rest => areParameters fuel rest
      | none => false
    | _, _ => false

/-- The second token without its suffix; a plus sign at its very start starts none. -/
def withoutSuffix (cs : List Char) : List Char :=
  match (cs.reverse.dropWhile (· != '+')).reverse with
  | [] => cs
  | ['+'] => cs
  | front => front.dropLast

def lower (cs : List Char) : List Char := cs.map Char.toLower

def isEventStream (cs : List Char) : Bool :=
  match cs.dropWhile isTokenChar with
  | '/' :: rest =>
    let second := rest.takeWhile isTokenChar
    lower (cs.takeWhile isTokenChar) == "text".toList
      && lower (withoutSuffix second) == "event-stream".toList
      && (match rest.dropWhile isTokenChar with
        | [] => true
        | c :: params => (c == ';' || c == ' ') && areParameters params.length params)
  | _ => false

end MediaType

end Converse.Http
