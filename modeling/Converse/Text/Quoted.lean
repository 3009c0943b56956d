import Converse.Text.EscapeTable

/-
  Text between double quotes, as an error message shows it.
  Quote, backslash, tab, line ends and NUL have short escapes; every other character of the escape table is
  written by its number, and all else stands for itself.
-/

namespace Converse.Text

/-- A number in base sixteen, lower case letters, no leading zeros. -/
def hexDigits (n : Nat) : String := String.ofList (Nat.toDigits 16 n)

def quotedChar (c : Char) : String :=
  match c with
  | '"' => "\\\""
  | '\\' => "\\\\"
  | '\t' => "\\t"
  | '\r' => "\\r"
  | '\n' => "\\n"
  | '\x00' => "\\0"
  | c => if inBounds escapedBounds c then "\\u\x7b" ++ hexDigits c.toNat ++ "\x7d" else c.toString

def quoted (s : String) : String :=
  "\"" ++ String.join (s.toList.map quotedChar) ++ "\""

end Converse.Text
