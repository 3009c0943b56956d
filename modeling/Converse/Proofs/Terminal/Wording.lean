import Converse.Proofs.Terminal.Prompt

/-
  How commands are worded.

  A line that starts with a slash is a command, and only its first word counts, in lower case; blanks around the
  slash and around the word do not matter (`ofLine_of_word`). A word that names no command is unknown and told in
  lower case (`ofWord_eq_unknown_iff`). `ofLine_worded` is the result; it also says that a line with a slash
  is never a message.
-/

namespace Converse

namespace Command

/-- A text in lower case. -/
def lowered (s : String) : String := String.ofList (Text.lowercase s.toList)

/-- Blanks alone, of whatever kind. -/
def IsGap (s : String) : Prop := Text.Blanks s.toList

/-- No character is blank. -/
def IsWord (s : String) : Prop := ∀ c ∈ s.toList, Text.isBlank c = false

instance : DecidablePred IsGap := fun s => List.decidableBAll _ s.toList

instance : DecidablePred IsWord := fun s => List.decidableBAll _ s.toList

variable {a b w : String}

theorem ofLine_eq_none_iff_first (line : String) :
    ofLine line = none ↔ line.toList.find? (!Text.isBlank ·) ≠ some '/' := by
  rw [ofLine_eq_none_iff, Text.toList_trimmed, Text.head?_trim]

theorem ofLine_of_trim {line : String} {rest word : List Char} (ht : Text.trim line.toList = '/' :: rest)
    (hw : Text.firstWord rest = word) :
    ofLine line = some (ofWord (String.ofList (Text.lowercase word))) := by
  rw [ofLine, ht, ← hw]
  rfl

theorem not_isBlank_slash : Text.isBlank '/' = false := by decide

/-- A word right after the slash. -/
theorem ofLine_of_slash (hw : IsWord w) : ofLine ("/" ++ w) = some (ofWord (lowered w)) := by
  have solid : ∀ c ∈ '/' :: w.toList, Text.isBlank c = false :=
    List.forall_mem_cons.mpr ⟨not_isBlank_slash, hw⟩
  have ht : Text.trim ("/" ++ w).toList = '/' :: w.toList := by
    rw [String.toList_append]
    exact Text.trim_of_solid (fun c hc => solid c (List.mem_of_head? hc))
      fun c hc => solid c (List.mem_of_getLast? hc)
  exact ofLine_of_trim ht (Text.firstWord_of_word hw)

/-- **Only the first word counts**: not the blanks around the slash, nor what follows the blank after the word. -/
theorem ofLine_of_word (ha : IsGap a) (hb : IsGap b) (hw : IsWord w) (hne : w ≠ "") {rest : String}
    (hr : ∀ c, rest.toList.head? = some c → Text.isBlank c = true) :
    ofLine (a ++ "/" ++ b ++ w ++ rest) = some (ofWord (lowered w)) := by
  have hwne : w.toList ≠ [] := by simpa using hne
  have hl : (a ++ "/" ++ b ++ w ++ rest).toList =
      a.toList ++ ('/' :: b.toList ++ w.toList ++ rest.toList) := by simp
  have front : Text.StartsSolid ('/' :: b.toList ++ w.toList ++ rest.toList) := by
    rintro c hc
    cases hc
    exact not_isBlank_slash
  have back : Text.EndsSolid ('/' :: b.toList ++ w.toList) := by
    intro c hc
    rw [List.getLast?_append_of_ne_nil _ hwne] at hc
    exact hw c (List.mem_of_getLast? hc)
  have ht : Text.trim (a ++ "/" ++ b ++ w ++ rest).toList =
      '/' :: (b.toList ++ w.toList ++ Text.trimBack rest.toList) := by
    rw [hl, Text.trim, Text.trimFront_append_of_blank ha, Text.trimFront_of_solid front,
      Text.trimBack_append back]
    rfl
  have hrest : ∀ c, (Text.trimBack rest.toList).head? = some c → Text.isBlank c = true := by
    intro c hc
    obtain ⟨tail, htail⟩ := Text.trimBack_prefix rest.toList
    refine hr c ?_
    rw [← htail, List.head?_append, hc, Option.some_or]
  exact ofLine_of_trim ht (Text.firstWord_surrounded hb hw hwne hrest)

/-! ## Names -/

/-- A word is unknown just if it is the name of no command. -/
theorem ofWord_eq_unknown_iff {word u : String} :
    ofWord word = .unknown u ↔ u = word ∧ word ∉ names.map Prod.fst := by
  have hlookup : names.lookup word = none ↔ word ∉ names.map Prod.fst := by
    rw [List.lookup_eq_none_iff, List.mem_map, not_exists]
    constructor
    · rintro h p ⟨hp, he⟩
      exact bne_iff_ne.mp (h p hp) he.symm
    · intro h p hp
      exact bne_iff_ne.mpr fun he => h p ⟨hp, he.symm⟩
  have named : ∀ p ∈ names, ∀ u, p.2 ≠ .unknown u := by simp [names]
  rw [← hlookup]
  unfold ofWord
  cases h : names.lookup word with
  | none => simp [eq_comm]
  | some c =>
    obtain ⟨front, rest, hn, -⟩ := List.lookup_eq_some_iff.mp h
    have hc : c ≠ .unknown u := named (word, c) (by simp [hn]) u
    simp [hc]

end Command

namespace Console

/-- A line is a message just if something else than a slash stands first in it. -/
theorem Request.ofLine_eq_message_iff {line text : String} :
    Request.ofLine line = .message text ↔ text = Text.trimmed line ∧
      ∃ c, line.toList.find? (!Text.isBlank ·) = some c ∧ c ≠ '/' := by
  have first : (Text.trimmed line).toList.head? = line.toList.find? (!Text.isBlank ·) := by
    rw [Text.toList_trimmed, Text.head?_trim]
  rw [← first]
  cases hc : Command.ofLine line with
  | some command => simp [ofLine_of_command hc, Command.head?_of_command hc]
  | none =>
    cases hb : (Text.trimmed line).isEmpty with
    | true => simp [ofLine_of_blank hb, String.isEmpty_iff.mp hb]
    | false =>
      have hne : (Text.trimmed line).toList ≠ [] := by simpa using hb
      obtain ⟨c, rest, hcons⟩ := List.exists_cons_of_ne_nil hne
      have hs := (Command.ofLine_eq_none_iff line).mp hc
      rw [hcons, List.head?_cons] at hs
      have hcs : c ≠ '/' := fun h => hs (congrArg some h)
      simp [ofLine_of_message hb hc, hcons, hcs, eq_comm]

end Console

namespace Command

/-- **Commands depend on their first word alone.** A line is none just if it has no slash as its first character
  that is no blank. What a command does depends on the lower case of its first word, whatever blanks stand around
  the slash and whatever follows the blank after the word. A word whose lower case is the name of no command is
  unknown and told in lower case. So no line that starts with a slash is a message. -/
theorem ofLine_worded :
    (∀ line, ofLine line = none ↔ line.toList.find? (!Text.isBlank ·) ≠ some '/') ∧
    (∀ a b c rest w, IsGap a → IsGap b → IsGap c → c ≠ "" → IsWord w → w ≠ "" →
      ofLine (a ++ "/" ++ b ++ w ++ c ++ rest) = ofLine ("/" ++ w) ∧
        ofLine (a ++ "/" ++ b ++ w) = ofLine ("/" ++ w)) ∧
    (∀ w w', IsWord w → IsWord w' → lowered w = lowered w' → ofLine ("/" ++ w) = ofLine ("/" ++ w')) ∧
    (∀ w word, IsWord w → (ofLine ("/" ++ w) = some (.unknown word) ↔
      word = lowered w ∧ lowered w ∉ ["help", "h", "?", "clear", "c", "retry", "r", "state", "s", "quit",
        "exit", "q"])) ∧
    ∀ line text, Console.Request.ofLine line = .message text ↔ text = Text.trimmed line ∧
      ∃ c, line.toList.find? (!Text.isBlank ·) = some c ∧ c ≠ '/' := by
  refine ⟨ofLine_eq_none_iff_first, ?_, ?_, ?_, fun _ _ => Console.Request.ofLine_eq_message_iff⟩
  · intro a b c rest w ha hb hc hcne hw hne
    have hcne : c.toList ≠ [] := by simpa using hcne
    have hgap : ∀ x, (c ++ rest).toList.head? = some x → Text.isBlank x = true := by
      intro x hx
      rw [String.toList_append, List.head?_append_of_ne_nil _ hcne] at hx
      exact hc x (List.mem_of_head? hx)
    have hnone : ∀ x, "".toList.head? = some x → Text.isBlank x = true := fun _ hx => nomatch hx
    rw [ofLine_of_slash hw]
    refine ⟨?_, ?_⟩
    · rw [String.append_assoc]
      exact ofLine_of_word ha hb hw hne hgap
    · have ho := ofLine_of_word ha hb hw hne hnone
      rwa [String.append_empty] at ho
  · intro w w' hw hw' hl
    rw [ofLine_of_slash hw, ofLine_of_slash hw', hl]
  · intro w word hw
    rw [ofLine_of_slash hw, Option.some.injEq]
    exact ofWord_eq_unknown_iff

/-- Blanks of other kinds around slash and word, capitals, and what looks like another command behind them; and a
  capital whose lower case is two characters. -/
theorem ofLine_worded_of_blanks :
    ofLine ("\u3000\t" ++ "/" ++ "\u00A0" ++ "ReTry" ++ " " ++ "now /quit") = some .retry ∧
      ofLine ("/" ++ "İ") = some (.unknown "i\u0307") := by
  have word : ofLine ("/" ++ "ReTry") = ofLine ("/" ++ "retry") :=
    ofLine_worded.2.2.1 "ReTry" "retry" (by decide) (by decide) (by decide)
  refine ⟨?_, ?_⟩
  · rw [(ofLine_worded.2.1 _ _ _ _ _ (by decide) (by decide) (by decide) (by decide) (by decide) (by decide)).1,
      word]
    decide
  · exact (ofLine_worded.2.2.2.1 "İ" _ (by decide)).mpr ⟨by decide, by decide⟩

/-- A sigma at the end of a word becomes the final one, behind a letter and a mark that only Unicode 16 has. -/
example : ofLine "/\u1C89\u0897Σ" = some (.unknown "\u1C8A\u0897ς") := by decide +kernel

end Command

end Converse
