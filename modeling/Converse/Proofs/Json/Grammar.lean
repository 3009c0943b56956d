import Converse.Proofs.Json.Settled
import Converse.Json.Reader

/-
  The grammar of JSON text.

  `Spells room cs p` says that the characters spell the phrase, at most `room` containers lying inside one
  another. It follows the grammar of JSON rule by rule and knows nothing of how a text is read; every string
  in it stands for a text and every number for a number. `Writes cs v` is a whole text: the value is the one
  that is written, members in written order and repetitions kept.
-/

namespace Converse.Json

def Blanks (cs : List Char) : Prop := ∀ c ∈ cs, isSpace c = true

theorem Blanks.nil : Blanks [] := fun _ h => nomatch h

/-! ## Strings -/

/-- The text of one character of a string. -/
inductive CharText : List Char → Char → Prop
  | plain {c : Char} (quote : c ≠ '"') (escape : c ≠ '\\') (control : ¬ c.toNat < 0x20) : CharText [c] c
  | short {k c : Char} (h : shortEscape k = some c) : CharText ['\\', k] c
  | word {a b c d : Char} {n : Nat} (h : hexWord a b c d = some n)
    (whole : ¬ (0xD800 ≤ n ∧ n ≤ 0xDFFF)) : CharText ['\\', 'u', a, b, c, d] (Char.ofNat n)
  | pair {a b c d a' b' c' d' : Char} {high low : Nat} (hh : hexWord a b c d = some high)
    (hl : hexWord a' b' c' d' = some low) (high_ge : 0xD800 ≤ high) (high_lt : high < 0xDC00)
    (low_ge : 0xDC00 ≤ low) (low_le : low ≤ 0xDFFF) :
    CharText ['\\', 'u', a, b, c, d, '\\', 'u', a', b', c', d']
      (Char.ofNat (0x10000 + (high - 0xD800) * 0x400 + (low - 0xDC00)))

/-- The text of a string between its quotes. -/
inductive StringText : List Char → List Char → Prop
  | nil : StringText [] []
  | cons {w ws : List Char} {c : Char} {cs : List Char} (head : CharText w c) (tail : StringText ws cs) :
    StringText (w ++ ws) (c :: cs)

/-! ## Numbers -/

def Digits (ds : List Char) : Prop := ds ≠ [] ∧ ∀ c ∈ ds, c.isDigit = true

inductive FractionText : List Char → Option (List Char) → Prop
  | absent : FractionText [] none
  | point {ds : List Char} (h : Digits ds) : FractionText ('.' :: ds) (some ds)

inductive PowerText : List Char → Option (Bool × List Char) → Prop
  | absent : PowerText [] none
  | unsigned {m : Char} {ds : List Char} (hm : isPowerMark m = true) (h : Digits ds) :
    PowerText (m :: ds) (some (false, ds))
  | plus {m : Char} {ds : List Char} (hm : isPowerMark m = true) (h : Digits ds) :
    PowerText (m :: '+' :: ds) (some (false, ds))
  | minus {m : Char} {ds : List Char} (hm : isPowerMark m = true) (h : Digits ds) :
    PowerText (m :: '-' :: ds) (some (true, ds))

def signText (negative : Bool) : List Char := if negative then ['-'] else []

inductive NumberText : List Char → Spelling → Prop
  | parts {negative : Bool} {ahead f p : List Char} {behind : Option (List Char)}
    {power : Option (Bool × List Char)} (ha : Digits ahead) (zero : ahead.head? = some '0' → ahead = ['0'])
    (hf : FractionText f behind) (hp : PowerText p power) :
    NumberText (signText negative ++ ahead ++ f ++ p) ⟨negative, ahead, behind, power⟩

/-! ## Values -/

/-- What a piece of text may be. Blanks stand around an element, and around the items and members of which a
  container is made. -/
inductive Phrase
  | value (v : Json)
  | element (v : Json)
  | items (vs : List Json)
  | member (name : String) (v : Json)
  | members (ms : Members)

inductive Spells : Nat → List Char → Phrase → Prop
  | null {room : Nat} : Spells room ['n', 'u', 'l', 'l'] (.value .null)
  | yes {room : Nat} : Spells room ['t', 'r', 'u', 'e'] (.value (.bool true))
  | no {room : Nat} : Spells room ['f', 'a', 'l', 's', 'e'] (.value (.bool false))
  | number {room : Nat} {w : List Char} {x : Spelling} {n : Number} (h : NumberText w x)
    (hn : x.number = some n) : Spells room w (.value (.number n))
  | string {room : Nat} {w cs : List Char} (h : StringText w cs) :
    Spells room ('"' :: w ++ ['"']) (.value (.string (String.ofList cs)))
  | emptyArray {room : Nat} {b : List Char} (h : Blanks b) :
    Spells (room + 1) ('[' :: b ++ [']']) (.value (.array []))
  | array {room : Nat} {w : List Char} {vs : List Json} (h : Spells room w (.items vs)) :
    Spells (room + 1) ('[' :: w ++ [']']) (.value (.array vs))
  | emptyObject {room : Nat} {b : List Char} (h : Blanks b) :
    Spells (room + 1) ('{' :: b ++ ['}']) (.value (.object []))
  | object {room : Nat} {w : List Char} {ms : Members} (h : Spells room w (.members ms)) :
    Spells (room + 1) ('{' :: w ++ ['}']) (.value (.object ms))
  | element {room : Nat} {b w b' : List Char} {v : Json} (hb : Blanks b) (h : Spells room w (.value v))
    (hb' : Blanks b') : Spells room (b ++ w ++ b') (.element v)
  | lastItem {room : Nat} {w : List Char} {v : Json} (h : Spells room w (.element v)) :
    Spells room w (.items [v])
  | item {room : Nat} {w ws : List Char} {v : Json} {vs : List Json} (h : Spells room w (.element v))
    (hs : Spells room ws (.items vs)) : Spells room (w ++ ',' :: ws) (.items (v :: vs))
  | member {room : Nat} {b n cs b' w : List Char} {v : Json} (hb : Blanks b) (hn : StringText n cs)
    (hb' : Blanks b') (h : Spells room w (.element v)) :
    Spells room (b ++ '"' :: n ++ '"' :: b' ++ ':' :: w) (.member (String.ofList cs) v)
  | lastMember {room : Nat} {w : List Char} {n : String} {v : Json} (h : Spells room w (.member n v)) :
    Spells room w (.members [(n, v)])
  | moreMembers {room : Nat} {w ws : List Char} {n : String} {v : Json} {ms : Members}
    (h : Spells room w (.member n v)) (hs : Spells room ws (.members ms)) :
    Spells room (w ++ ',' :: ws) (.members ((n, v) :: ms))

/-- The characters are a JSON text that writes the value. -/
def Writes (cs : List Char) (v : Json) : Prop := Spells maxDepth cs (.element v)

/-- How deep a phrase is. -/
def Phrase.depth : Phrase → Nat
  | .value v => v.depth
  | .element v => v.depth
  | .items vs => itemsDepth vs
  | .member _ v => v.depth
  | .members ms => membersDepth ms

/-- There is room for all that is spelled. -/
theorem Spells.depth_le {room : Nat} {cs : List Char} {p : Phrase} (h : Spells room cs p) :
    p.depth ≤ room := by
  induction h with
  | emptyArray | emptyObject => exact Nat.succ_le_succ (Nat.zero_le _)
  | array _ ih => exact Nat.succ_le_succ ih
  | object _ ih => exact Nat.succ_le_succ ih
  | element _ _ _ ih => exact ih
  | lastItem _ ih => exact Nat.max_le.mpr ⟨ih, Nat.zero_le _⟩
  | item _ _ ih ihs => exact Nat.max_le.mpr ⟨ih, ihs⟩
  | member _ _ _ _ ih => exact ih
  | lastMember _ ih => exact Nat.max_le.mpr ⟨ih, Nat.zero_le _⟩
  | moreMembers _ _ ih ihs => exact Nat.max_le.mpr ⟨ih, ihs⟩
  | _ => exact Nat.zero_le _

end Converse.Json
