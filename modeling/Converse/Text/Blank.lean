/-
  Blank characters, and what is left of a text without the blanks around it.
  `trim` drops blanks at both ends; `firstWord` is the first run of characters that are not blank.
-/

namespace Converse.Text

/-- The characters with the Unicode property White_Space. -/
def isBlank (c : Char) : Bool :=
  let n := c.toNat
  (0x9 ≤ n && n ≤ 0xD) || n == 0x20 || n == 0x85 || n == 0xA0 || n == 0x1680
    || (0x2000 ≤ n && n ≤ 0x200A) || n == 0x2028 || n == 0x2029 || n == 0x202F
    || n == 0x205F || n == 0x3000

def trimFront (cs : List Char) : List Char := cs.dropWhile isBlank

def trimBack (cs : List Char) : List Char := (cs.reverse.dropWhile isBlank).reverse

def trim (cs : List Char) : List Char := trimBack (trimFront cs)

/-- The first run of characters that are not blank, empty if there is none. -/
def firstWord (cs : List Char) : List Char := (trimFront cs).takeWhile (fun c => !isBlank c)

def trimmed (s : String) : String := String.ofList (trim s.toList)

theorem trimFront_cons_of_not_blank {c : Char} (h : isBlank c = false) (cs : List Char) :
    trimFront (c :: cs) = c :: cs := by
  simp [trimFront, List.dropWhile, h]

theorem trimFront_append_of_blank {bs : List Char} (h : ∀ b ∈ bs, isBlank b) (cs : List Char) :
    trimFront (bs ++ cs) = trimFront cs := by
  induction bs with
  | nil => rfl
  | cons b bs ih =>
    have hb : isBlank b = true := h b (by simp)
    have := ih (fun x hx => h x (by simp [hx]))
    simpa [trimFront, List.dropWhile, hb] using this

end Converse.Text
