import Converse.Json.Basic

/-
  JSON text of a value: compact, or laid out with two blanks a level.
  Of the characters in a string only the quote, the backslash and the control characters are escaped.
-/

namespace Converse.Json

def hexDigit (n : Nat) : Char := Nat.digitChar n

def escaped (c : Char) : List Char :=
  if c == '"' then ['\\', '"']
  else if c == '\\' then ['\\', '\\']
  else if c == '\n' then ['\\', 'n']
  else if c == '\r' then ['\\', 'r']
  else if c == '\t' then ['\\', 't']
  else if c == '\x08' then ['\\', 'b']
  else if c == '\x0c' then ['\\', 'f']
  else if c.toNat < 0x20 then ['\\', 'u', '0', '0', hexDigit (c.toNat / 16), hexDigit (c.toNat % 16)]
  else [c]

def stringChars (s : String) : List Char := '"' :: s.toList.flatMap escaped ++ ['"']

def integerChars (n : Int) : List Char :=
  if n < 0 then '-' :: Nat.toDigits 10 n.natAbs else Nat.toDigits 10 n.natAbs

def Number.chars : Number → List Char
  | .integer n => integerChars n
  | .double d => d.chars

mutual

def chars : Json → List Char
  | .null => "null".toList
  | .bool true => "true".toList
  | .bool false => "false".toList
  | .number n => n.chars
  | .string s => stringChars s
  | .array items => '[' :: itemChars items ++ [']']
  | .object members => '{' :: memberChars members ++ ['}']

def itemChars : List Json → List Char
  | [] => []
  | v :: rest => chars v ++ (if rest.isEmpty then [] else ',' :: itemChars rest)

def memberChars : List (String × Json) → List Char
  | [] => []
  | (n, v) :: rest =>
    stringChars n ++ ':' :: chars v ++ (if rest.isEmpty then [] else ',' :: memberChars rest)

end

def compact (v : Json) : String := String.ofList v.chars

/-! ## With line breaks -/

def indent (depth : Nat) : List Char := '\n' :: List.replicate (2 * depth) ' '

mutual

def prettyChars (depth : Nat) : Json → List Char
  | .array [] => ['[', ']']
  | .array (v :: rest) =>
    '[' :: prettyItems (depth + 1) (v :: rest) ++ indent depth ++ [']']
  | .object [] => ['{', '}']
  | .object (m :: rest) =>
    '{' :: prettyMembers (depth + 1) (m :: rest) ++ indent depth ++ ['}']
  | .null => "null".toList
  | .bool true => "true".toList
  | .bool false => "false".toList
  | .number n => n.chars
  | .string s => stringChars s

def prettyItems (depth : Nat) : List Json → List Char
  | [] => []
  | v :: rest =>
    indent depth ++ prettyChars depth v ++ (if rest.isEmpty then [] else ',' :: prettyItems depth rest)

def prettyMembers (depth : Nat) : List (String × Json) → List Char
  | [] => []
  | (n, v) :: rest =>
    indent depth ++ stringChars n ++ ':' :: ' ' :: prettyChars depth v
      ++ (if rest.isEmpty then [] else ',' :: prettyMembers depth rest)

end

def pretty (v : Json) : String := String.ofList (prettyChars 0 v)

end Converse.Json
