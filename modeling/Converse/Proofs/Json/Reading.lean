import Converse.Proofs.Json.Grammar
import Mathlib.Data.List.TakeWhile

/-
  The reader reads the grammar.

  Each part of the reader is met twice: what is spelled is read, and what is read was spelled. Numbers end
  where no digit, point or exponent follows (`Stops`); everything else shows its own end. `read?_eq_some_iff`
  is the result.
-/

namespace Converse.Json

variable {cs rest w : List Char}

/-! ## Blanks -/

theorem skipSpace_blanks {b : List Char} (hb : Blanks b) (cs : List Char) :
    skipSpace (b ++ cs) = skipSpace cs := List.dropWhile_append_of_pos hb

theorem skipSpace_of_not_blank {c : Char} (h : isSpace c = false) (cs : List Char) :
    skipSpace (c :: cs) = c :: cs := List.dropWhile_cons_of_neg (by simp [h])

theorem exists_blanks (cs : List Char) : ∃ b, Blanks b ∧ cs = b ++ skipSpace cs :=
  ⟨cs.takeWhile isSpace, fun _ h => List.mem_takeWhile_imp h, List.takeWhile_append_dropWhile.symm⟩

/-! ## Strings -/

/-- One written character of a string: `CharText`, but for halves of surrogate pairs taken one by one. -/
inductive PieceText : List Char → Written → Prop
  | plain {c : Char} (quote : c ≠ '"') (escape : c ≠ '\\') (control : ¬ c.toNat < 0x20) :
    PieceText [c] (.char c)
  | short {k c : Char} (h : shortEscape k = some c) : PieceText ['\\', k] (.char c)
  | word {a b c d : Char} {n : Nat} (h : hexWord a b c d = some n) :
    PieceText ['\\', 'u', a, b, c, d] (.ofWord n)

inductive PiecesText : List Char → List Written → Prop
  | nil : PiecesText [] []
  | cons {w ws : List Char} {u : Written} {us : List Written} (head : PieceText w u)
    (tail : PiecesText ws us) : PiecesText (w ++ ws) (u :: us)

theorem PieceText.read {u : Written} (h : PieceText w u) {us : List Written}
    (hr : writtenRest cs = some (us, rest)) : writtenRest (w ++ cs) = some (u :: us, rest) := by
  cases h with
  | plain hq he hc =>
    rw [List.singleton_append, writtenRest, if_neg hc, hr]
    · rfl
    all_goals simp_all
  | @short k c hk =>
    have hu : k ≠ 'u' := by
      rintro rfl
      cases hk
    change writtenRest ('\\' :: k :: cs) = _
    rw [writtenRest, hr, hk]
    · rfl
    · rintro _ _ _ _ _ rfl
      exact absurd rfl hu
  | word hn =>
    change writtenRest ('\\' :: 'u' :: _ :: _ :: _ :: _ :: cs) = _
    rw [writtenRest, hr, hn]
    rfl

theorem Written.before_eq_some {u : Option Written} {r : Option (List Written × List Char)}
    {us : List Written} (h : Written.before u r = some (us, rest)) :
    ∃ v vs, u = some v ∧ r = some (vs, rest) ∧ us = v :: vs := by
  unfold Written.before at h
  split at h
  · cases h
    exact ⟨_, _, rfl, rfl, rfl⟩
  · cases h

theorem writtenRest_eq_some_iff {us : List Written} :
    writtenRest cs = some (us, rest) ↔ ∃ w, cs = w ++ '"' :: rest ∧ PiecesText w us := by
  constructor
  · intro h
    fun_induction writtenRest cs generalizing us with
    | case1 => cases h
    | case2 cs =>
      cases h
      exact ⟨[], rfl, .nil⟩
    | case3 a b c d cs ih =>
      obtain ⟨u, vs, hu, hr, rfl⟩ := Written.before_eq_some h
      obtain ⟨n, hn, rfl⟩ := Option.map_eq_some_iff.mp hu
      obtain ⟨w, rfl, hw⟩ := ih hr
      exact ⟨_, rfl, .cons (.word hn) hw⟩
    | case4 c cs _ ih =>
      obtain ⟨u, vs, hu, hr, rfl⟩ := Written.before_eq_some h
      obtain ⟨k, hk, rfl⟩ := Option.map_eq_some_iff.mp hu
      obtain ⟨w, rfl, hw⟩ := ih hr
      exact ⟨_, rfl, .cons (.short hk) hw⟩
    | case5 => cases h
    | case6 c cs hq _ he hc ih =>
      obtain ⟨u, vs, hu, hr, rfl⟩ := Written.before_eq_some h
      cases hu
      have hb : c ≠ '\\' := by
        rintro rfl
        cases cs with
        | nil => cases hr
        | cons k cs => exact he k cs rfl rfl
      obtain ⟨w, rfl, hw⟩ := ih hr
      exact ⟨_, rfl, .cons (.plain hq hb hc) hw⟩
  · rintro ⟨w, rfl, hw⟩
    induction hw with
    | nil => rfl
    | cons head tail ih => rw [List.append_assoc, head.read ih]

theorem PieceText.charText {c : Char} (h : PieceText w (.char c)) : CharText w c := by
  generalize hu : Written.char c = u at h
  cases h with
  | plain hq he hc =>
    cases hu
    exact .plain hq he hc
  | short hk =>
    cases hu
    exact .short hk
  | @word _ _ _ _ n hn =>
    unfold Written.ofWord at hu
    split at hu
    · cases hu
    · next whole =>
      cases hu
      exact .word hn (by simpa using whole)

/-- Half a surrogate pair is written by its number. -/
theorem PieceText.half {n : Nat} (h : PieceText w (.half n)) :
    ∃ a b c d, w = ['\\', 'u', a, b, c, d] ∧ hexWord a b c d = some n ∧ 0xD800 ≤ n ∧ n ≤ 0xDFFF := by
  generalize hu : Written.half n = u at h
  cases h with
  | plain => cases hu
  | short => cases hu
  | word hn =>
    unfold Written.ofWord at hu
    split at hu
    · next whole =>
      cases hu
      exact ⟨_, _, _, _, rfl, hn, by simpa using whole⟩
    · cases hu

/-- A string stands for a text if its halves come in pairs. -/
theorem stringText_iff {cs : List Char} :
    StringText w cs ↔ ∃ us, PiecesText w us ∧ spoken us = some cs := by
  constructor
  · intro h
    induction h with
    | nil => exact ⟨[], .nil, rfl⟩
    | cons head tail ih =>
      obtain ⟨us, hw, hs⟩ := ih
      cases head with
      | plain hq he hc => exact ⟨_, .cons (.plain hq he hc) hw, by rw [spoken, hs]; rfl⟩
      | short hk => exact ⟨_, .cons (.short hk) hw, by rw [spoken, hs]; rfl⟩
      | word hn whole =>
        refine ⟨_, .cons (.word hn) hw, ?_⟩
        rw [Written.ofWord, if_neg (by simpa using whole), spoken, hs]
        rfl
      | pair hh hl high_ge high_lt low_ge low_le =>
        have hp := PiecesText.cons (.word hh) (.cons (.word hl) hw)
        refine ⟨_, hp, ?_⟩
        rw [Written.ofWord, if_pos (by simp; omega), Written.ofWord, if_pos (by simp; omega), spoken,
          if_pos (by simp; omega), hs]
        rfl
  · rintro ⟨us, hw, hs⟩
    fun_induction spoken us generalizing w cs with
    | case1 =>
      cases hs
      cases hw
      exact .nil
    | case2 c us ih =>
      obtain ⟨ds, hd, rfl⟩ := Option.map_eq_some_iff.mp hs
      cases hw with
      | cons head tail => exact .cons head.charText (ih tail hd)
    | case3 high low us hpair ih =>
      obtain ⟨ds, hd, rfl⟩ := Option.map_eq_some_iff.mp hs
      cases hw with
      | cons head tail =>
        cases tail with
        | cons head' tail =>
          obtain ⟨a, b, c, d, rfl, hh, high_ge, _⟩ := head.half
          obtain ⟨a', b', c', d', rfl, hl, _, low_le⟩ := head'.half
          simp only [Bool.and_eq_true, decide_eq_true_eq] at hpair
          have hp := StringText.cons (.pair hh hl high_ge hpair.1 hpair.2 low_le) (ih tail hd)
          exact hp
    | case4 => cases hs
    | case5 => cases hs

theorem quotedString_eq_some_iff {t : String} :
    quotedString cs = some (some t, rest) ↔
      ∃ w ds, cs = w ++ '"' :: rest ∧ StringText w ds ∧ t = String.ofList ds := by
  unfold quotedString
  constructor
  · intro h
    obtain ⟨⟨us, rest'⟩, hr, he⟩ := Option.map_eq_some_iff.mp h
    obtain ⟨hs, rfl⟩ := Prod.mk.inj he
    obtain ⟨ds, hd, rfl⟩ := Option.map_eq_some_iff.mp hs
    obtain ⟨w, rfl, hw⟩ := writtenRest_eq_some_iff.mp hr
    exact ⟨w, ds, rfl, stringText_iff.mpr ⟨us, hw, hd⟩, rfl⟩
  · rintro ⟨w, ds, rfl, hw, rfl⟩
    obtain ⟨us, hw, hs⟩ := stringText_iff.mp hw
    rw [writtenRest_eq_some_iff.mpr ⟨w, rfl, hw⟩, Option.map_some, hs]
    rfl

/-! ## Numbers -/

/-- Nothing follows with which a number could go on. -/
def Stops (cs : List Char) : Prop :=
  ∀ c, cs.head? = some c → c.isDigit = false ∧ c ≠ '.' ∧ isPowerMark c = false

theorem Digits.head {ds : List Char} (h : Digits ds) {c : Char} (he : ds ++ rest = c :: cs) :
    c.isDigit = true := by
  cases ds with
  | nil => exact absurd rfl h.1
  | cons d ds => exact (List.cons.inj he).1 ▸ h.2 d List.mem_cons_self

theorem someDigits_append {ds : List Char} (h : Digits ds)
    (hr : ∀ c, rest.head? = some c → c.isDigit = false) :
    someDigits (ds ++ rest) = some (ds, rest) := by
  have hrest : rest.takeWhile Char.isDigit = [] ∧ rest.dropWhile Char.isDigit = rest := by
    cases rest with
    | nil => exact ⟨rfl, rfl⟩
    | cons c rest => simp [hr c rfl]
  unfold someDigits
  rw [List.takeWhile_append_of_pos h.2, List.dropWhile_append_of_pos h.2, hrest.1, hrest.2, List.append_nil]
  split
  · exact absurd rfl h.1
  · rfl

theorem digits_of_someDigits {ds : List Char} (h : someDigits cs = some (ds, rest)) :
    Digits ds ∧ cs = ds ++ rest := by
  unfold someDigits at h
  split at h
  · cases h
  · next hne =>
    obtain ⟨rfl, rfl⟩ := Prod.mk.inj (Option.some.inj h)
    exact ⟨⟨hne, fun _ hc => List.mem_takeWhile_imp hc⟩, List.takeWhile_append_dropWhile.symm⟩

theorem isPowerMark_iff {c : Char} : isPowerMark c = true ↔ c = 'e' ∨ c = 'E' := by
  simp [isPowerMark]

theorem FractionText.read {f : List Char} {b : Option (List Char)} (h : FractionText f b)
    (hr : ∀ c, rest.head? = some c → c.isDigit = false ∧ c ≠ '.') :
    fraction (f ++ rest) = some (b, rest) := by
  cases h with
  | absent =>
    rw [List.nil_append]
    unfold fraction
    split
    · exact absurd rfl (hr _ rfl).2
    · rfl
  | point h =>
    change (someDigits (_ ++ rest)).map _ = _
    rw [someDigits_append h fun c hc => (hr c hc).1]
    rfl

theorem fractionText_of_fraction {b : Option (List Char)} (h : fraction cs = some (b, rest)) :
    ∃ f, cs = f ++ rest ∧ FractionText f b := by
  unfold fraction at h
  split at h
  · obtain ⟨⟨ds, r⟩, hr, he⟩ := Option.map_eq_some_iff.mp h
    cases he
    obtain ⟨hd, rfl⟩ := digits_of_someDigits hr
    exact ⟨_, rfl, .point hd⟩
  · cases h
    exact ⟨[], rfl, .absent⟩

theorem PowerText.read {p : List Char} {x : Option (Bool × List Char)} (h : PowerText p x)
    (hr : Stops rest) : power (p ++ rest) = some (x, rest) := by
  have hd : ∀ c, rest.head? = some c → c.isDigit = false := fun c hc => (hr c hc).1
  cases h with
  | absent =>
    cases rest with
    | nil => rfl
    | cons c rest => simp [power, (hr c rfl).2.2]
  | @unsigned m ds hm h =>
    rw [List.cons_append, power, if_pos hm, someDigits_append h hd]
    · rfl
    all_goals
      intro cs he
      exact absurd (h.head he) (by decide)
  | plus hm h =>
    change power (_ :: '+' :: (_ ++ rest)) = _
    rw [power, if_pos hm, someDigits_append h hd]
    rfl
  | minus hm h =>
    change power (_ :: '-' :: (_ ++ rest)) = _
    rw [power, if_pos hm, someDigits_append h hd]
    rfl

theorem powerText_of_power {x : Option (Bool × List Char)} (h : power cs = some (x, rest)) :
    ∃ p, cs = p ++ rest ∧ PowerText p x := by
  unfold power at h
  split at h
  · next c cs =>
    split at h
    · next hm =>
      split at h
      all_goals
        obtain ⟨⟨ds, r⟩, hr, he⟩ := Option.map_eq_some_iff.mp h
        cases he
        obtain ⟨hd, rfl⟩ := digits_of_someDigits hr
      · exact ⟨_, rfl, .minus hm hd⟩
      · exact ⟨_, rfl, .plus hm hd⟩
      · exact ⟨_, rfl, .unsigned hm hd⟩
    · cases h
      exact ⟨[], rfl, .absent⟩
  · cases h
    exact ⟨[], rfl, .absent⟩

/-- A number ends its first digits where its fraction or its exponent begins. -/
theorem PowerText.follows {p : List Char} {x : Option (Bool × List Char)} (h : PowerText p x)
    (hr : Stops rest) (c : Char) (hc : (p ++ rest).head? = some c) : c.isDigit = false ∧ c ≠ '.' := by
  have hmark : ∀ m, isPowerMark m = true → m.isDigit = false ∧ m ≠ '.' := by
    intro m hm
    rcases isPowerMark_iff.mp hm with rfl | rfl <;> decide
  cases h with
  | absent => exact ⟨(hr c hc).1, (hr c hc).2.1⟩
  | unsigned hm | plus hm | minus hm =>
    cases hc
    exact hmark _ hm

theorem FractionText.follows {f : List Char} {b : Option (List Char)} (h : FractionText f b)
    (hr : ∀ c, rest.head? = some c → c.isDigit = false) (c : Char) (hc : (f ++ rest).head? = some c) :
    c.isDigit = false := by
  cases h with
  | absent => exact hr c hc
  | point =>
    cases hc
    rfl

theorem signText_append (cs : List Char) :
    signText (cs.head? == some '-') ++ (if cs.head? == some '-' then cs.drop 1 else cs) = cs := by
  cases cs with
  | nil => rfl
  | cons c cs =>
    by_cases h : c = '-'
    · simp [h, signText]
    · simp [h, signText]

/-- The sign of a number is told by whether it begins with a minus. -/
theorem sign_of_digits {ds : List Char} (h : Digits ds) (negative : Bool) (cs : List Char) :
    ((signText negative ++ (ds ++ cs)).head? == some '-') = negative ∧
      (if negative then (signText negative ++ (ds ++ cs)).drop 1 else signText negative ++ (ds ++ cs)) =
        ds ++ cs := by
  cases negative with
  | true => exact ⟨rfl, rfl⟩
  | false =>
    refine ⟨?_, rfl⟩
    cases ds with
    | nil => exact absurd rfl h.1
    | cons d ds =>
      have hd : d ≠ '-' := by
        rintro rfl
        exact absurd (h.2 '-' List.mem_cons_self) (by decide)
      simp [signText, hd]

theorem NumberText.read {x : Spelling} (h : NumberText w x) (hr : Stops rest) :
    spelling (w ++ rest) = some (x, rest) := by
  cases h with
  | @parts negative ahead f p behind pow ha zero hf hp =>
    have hp' := hp.follows hr
    have hf' := hf.follows fun c hc => (hp' c hc).1
    have hz : ¬ (ahead.head? == some '0' && ahead.length != 1) = true := by
      intro h
      simp only [Bool.and_eq_true, beq_iff_eq, bne_iff_ne] at h
      rw [zero h.1] at h
      exact h.2 rfl
    obtain ⟨hs, hd⟩ := sign_of_digits ha negative (f ++ (p ++ rest))
    simp only [List.append_assoc, spelling, hs, hd, someDigits_append ha hf', hf.read hp', hp.read hr,
      Option.bind_eq_bind, Option.bind_some, if_neg hz]
    rfl

theorem numberText_of_spelling {x : Spelling} (h : spelling cs = some (x, rest)) :
    ∃ w, cs = w ++ rest ∧ NumberText w x := by
  unfold spelling at h
  simp only [Option.bind_eq_bind, Option.bind_eq_some_iff] at h
  obtain ⟨⟨ahead, r⟩, ha, h⟩ := h
  split at h
  · cases h
  next hz =>
    simp only [Option.bind_eq_some_iff] at h
    obtain ⟨⟨behind, r'⟩, hf, ⟨pow, r''⟩, hp, h⟩ := h
    cases h
    obtain ⟨hd, he⟩ := digits_of_someDigits ha
    obtain ⟨f, rfl, hft⟩ := fractionText_of_fraction hf
    obtain ⟨p, rfl, hpt⟩ := powerText_of_power hp
    have hzero : ahead.head? = some '0' → ahead = ['0'] := by
      intro h0
      simp only [h0, Bool.and_eq_true, not_and, bne_iff_ne, not_not] at hz
      obtain ⟨c, rfl⟩ := List.length_eq_one_iff.mp (hz (beq_self_eq_true _))
      exact congrArg (fun c => [c]) (Option.some.inj h0)
    refine ⟨_, ?_, .parts hd hzero hft hpt⟩
    have hs := signText_append cs
    rw [he] at hs
    simpa only [List.append_assoc] using hs.symm

/-! ## What is spelled is read -/

theorem isSpace_iff {c : Char} : isSpace c = true ↔ c = ' ' ∨ c = '\n' ∨ c = '\t' ∨ c = '\r' := by
  simp [isSpace, or_assoc]

theorem Stops.blanks {b : List Char} (hb : Blanks b) (hr : Stops rest) : Stops (b ++ rest) := by
  cases b with
  | nil => exact hr
  | cons c b =>
    intro d hd
    cases hd
    rcases isSpace_iff.mp (hb c List.mem_cons_self) with rfl | rfl | rfl | rfl <;> decide

/-- A number begins with a character that is neither blank nor a closing bracket. -/
theorem NumberText.begins {x : Spelling} (h : NumberText w x) :
    ∃ c ws, w = c :: ws ∧ isSpace c = false ∧ c ≠ ']' ∧ c ≠ '}' := by
  have hd : ∀ c, c.isDigit = true → isSpace c = false ∧ c ≠ ']' ∧ c ≠ '}' := by
    intro c hc
    have hne : ∀ d, d.isDigit = false → c ≠ d := by
      rintro d hd rfl
      exact Bool.false_ne_true (hd.symm.trans hc)
    refine ⟨Bool.eq_false_iff.mpr fun hs => ?_, hne _ rfl, hne _ rfl⟩
    rcases isSpace_iff.mp hs with h | h | h | h <;> exact hne _ rfl h
  cases h with
  | @parts negative ahead _ _ _ _ ha =>
    obtain ⟨d, ds, rfl⟩ := List.exists_cons_of_ne_nil ha.1
    cases negative with
    | true => exact ⟨_, _, rfl, rfl, by decide, by decide⟩
    | false => exact ⟨_, _, rfl, hd d (ha.2 d List.mem_cons_self)⟩

/-- So does every value. -/
theorem Spells.value_begins {room : Nat} {v : Json} (h : Spells room w (.value v)) :
    ∃ c ws, w = c :: ws ∧ isSpace c = false ∧ c ≠ ']' ∧ c ≠ '}' := by
  cases h with
  | number h => exact h.begins
  | _ => exact ⟨_, _, rfl, rfl, by decide, by decide⟩

theorem Spells.begins {room : Nat} {p : Phrase} (h : Spells room w p) (rest : List Char) :
    ∃ c ws, skipSpace (w ++ rest) = c :: ws ∧ c ≠ ']' ∧ c ≠ '}' := by
  induction h generalizing rest with
  | element hb h hb' ih =>
    simp only [List.append_assoc, skipSpace_blanks hb]
    exact ih _
  | lastItem _ ih => exact ih _
  | item _ _ ih => simpa only [List.append_assoc] using ih _
  | member hb _ _ _ =>
    simp only [List.append_assoc, skipSpace_blanks hb]
    exact ⟨_, _, skipSpace_of_not_blank rfl _, by decide, by decide⟩
  | lastMember _ ih => exact ih _
  | moreMembers _ _ ih => simpa only [List.append_assoc] using ih _
  | number h =>
    obtain ⟨c, ws, rfl, hs, hc⟩ := h.begins
    exact ⟨_, _, skipSpace_of_not_blank hs _, hc⟩
  | _ => exact ⟨_, _, skipSpace_of_not_blank rfl _, by decide, by decide⟩

/-- What the reader does at a phrase, whatever follows. -/
def Phrase.Read (room : Nat) (cs : List Char) : Phrase → Prop
  | .value v => ∀ fuel rest, cs.length < fuel → Stops rest →
    Json.element fuel room (cs ++ rest) = (v.toDraft, some rest)
  | .element v => ∀ fuel rest, cs.length < fuel → Stops rest →
    ∃ tail, Json.element fuel room (skipSpace (cs ++ rest)) = (v.toDraft, some tail) ∧
      skipSpace tail = skipSpace rest
  | .items vs => ∀ fuel n rest, cs.length < fuel → cs.length < n →
    Json.items (Json.element fuel room) n (skipSpace (cs ++ ']' :: rest)) = (itemDrafts vs, some rest)
  | .member name v => ∀ fuel rest, cs.length < fuel → Stops rest →
    ∃ inner after tail, skipSpace (cs ++ rest) = '"' :: inner ∧
      quotedString inner = some (some name, after) ∧
      memberValue (Json.element fuel room) after = (v.toDraft, some tail) ∧ skipSpace tail = skipSpace rest
  | .members ms => ∀ fuel n rest, cs.length < fuel → cs.length < n →
    Json.members (Json.element fuel room) n (skipSpace (cs ++ '}' :: rest)) = (memberDrafts ms, some rest)

theorem scalar_of_spelling {x : Spelling} (h : spelling cs = some (x, rest)) {n : Number}
    (hn : x.number = some n) : scalar cs = (.number n, some rest) := by
  unfold scalar
  split
  · cases h
  · cases h
  · cases h
  · cases h
  · simp only [h, hn]

/-- What is no container is read as a scalar. -/
theorem element_of_scalar {d : Draft} (h : scalar cs = (d, some rest)) {fuel : Nat} (hf : 0 < fuel)
    (room : Nat) : element fuel room cs = (d, some rest) := by
  obtain ⟨fuel, rfl⟩ := Nat.exists_eq_succ_of_ne_zero hf.ne'
  rw [element]
  · exact h
  · rintro _ rfl
    cases h
  · rintro _ rfl
    cases h

variable {el : List Char → Reading} {fuel : Nat}

theorem arrayRest_of_empty (h : skipSpace cs = ']' :: rest) :
    arrayRest el fuel cs = (.array [] true, some rest) := by
  rw [arrayRest, h]
  rfl

theorem arrayRest_of_items {c : Char} {ws : List Char} {ds : List Draft} (h : skipSpace cs = c :: ws)
    (hc : c ≠ ']') (hi : items el fuel (skipSpace cs) = (ds, some rest)) :
    arrayRest el fuel cs = (.array ds true, some rest) := by
  rw [h] at hi
  rw [arrayRest, h]
  split
  · next he => exact absurd (List.cons.inj he).1 hc
  · rw [hi]
    rfl

theorem objectRest_of_empty (h : skipSpace cs = '}' :: rest) :
    objectRest el fuel cs = (.object [] true, some rest) := by
  rw [objectRest, h]
  rfl

theorem objectRest_of_members {c : Char} {ws : List Char} {ds : List (Option String × Draft)}
    (h : skipSpace cs = c :: ws) (hc : c ≠ '}') (hi : members el fuel (skipSpace cs) = (ds, some rest)) :
    objectRest el fuel cs = (.object ds true, some rest) := by
  rw [h] at hi
  rw [objectRest, h]
  split
  · next he => exact absurd (List.cons.inj he).1 hc
  · rw [hi]
    rfl

theorem Spells.read {room : Nat} {p : Phrase} (h : Spells room w p) : p.Read room w := by
  have comma : ∀ cs, Stops (',' :: cs) := fun _ c hc => by cases hc; decide
  have bracket : ∀ cs, Stops (']' :: cs) := fun _ c hc => by cases hc; decide
  have brace : ∀ cs, Stops ('}' :: cs) := fun _ c hc => by cases hc; decide
  induction h with
  | null | yes | no => exact fun fuel rest hf _ => element_of_scalar rfl (Nat.zero_lt_of_lt hf) _
  | number h hn =>
    intro fuel rest hf hr
    exact element_of_scalar (scalar_of_spelling (h.read hr) hn) (Nat.zero_lt_of_lt hf) _
  | @string room w ds h =>
    intro fuel rest hf _
    have hq : quotedString (w ++ '"' :: rest) = some (some (String.ofList ds), rest) :=
      quotedString_eq_some_iff.mpr ⟨w, ds, rfl, h, rfl⟩
    refine element_of_scalar ?_ (Nat.zero_lt_of_lt hf) _
    simp only [List.cons_append, List.append_assoc, List.nil_append]
    rw [scalar, hq]
    rfl
  | emptyArray h =>
    rintro (_ | fuel) rest hf _
    · cases hf
    simp only [List.cons_append, List.append_assoc, List.nil_append]
    rw [Json.element, arrayRest_of_empty (skipSpace_blanks h _)]
    rfl
  | array h ih =>
    rintro (_ | fuel) rest hf _
    · cases hf
    have hf : _ < fuel := Nat.lt_of_succ_lt (by simpa using hf)
    obtain ⟨c, ws, hs, hc, _⟩ := h.begins (']' :: rest)
    simp only [List.cons_append, List.append_assoc, List.nil_append]
    rw [Json.element, Nat.add_sub_cancel, arrayRest_of_items hs hc (ih fuel fuel rest hf hf)]
    rfl
  | emptyObject h =>
    rintro (_ | fuel) rest hf _
    · cases hf
    simp only [List.cons_append, List.append_assoc, List.nil_append]
    rw [Json.element, objectRest_of_empty (skipSpace_blanks h _)]
    rfl
  | object h ih =>
    rintro (_ | fuel) rest hf _
    · cases hf
    have hf : _ < fuel := Nat.lt_of_succ_lt (by simpa using hf)
    obtain ⟨c, ws, hs, _, hc⟩ := h.begins ('}' :: rest)
    simp only [List.cons_append, List.append_assoc, List.nil_append]
    rw [Json.element, Nat.add_sub_cancel, objectRest_of_members hs hc (ih fuel fuel rest hf hf)]
    rfl
  | @element room b w b' v hb h hb' ih =>
    intro fuel rest hf hr
    simp only [List.length_append] at hf
    obtain ⟨c, ws, rfl, hs, _⟩ := h.value_begins
    simp only [List.append_assoc, skipSpace_blanks hb]
    rw [List.cons_append, skipSpace_of_not_blank hs, ← List.cons_append]
    exact ⟨_, ih fuel _ (by omega) (hr.blanks hb'), skipSpace_blanks hb' _⟩
  | lastItem h ih =>
    rintro fuel (_ | n) rest hf hn
    · cases hn
    obtain ⟨tail, he, ht⟩ := ih fuel (']' :: rest) hf (bracket _)
    rw [Json.items, he]
    simp only [ht, skipSpace_of_not_blank (c := ']') rfl]
    rfl
  | item h hs ih ihs =>
    rintro fuel (_ | n) rest hf hn
    · cases hn
    simp only [List.length_append, List.length_cons] at hf hn
    obtain ⟨tail, he, ht⟩ := ih fuel (',' :: (_ ++ ']' :: rest)) (by omega) (comma _)
    simp only [List.append_assoc, List.cons_append]
    rw [Json.items, he]
    simp only [ht, skipSpace_of_not_blank (c := ',') rfl]
    rw [ihs fuel n rest (by omega) (by omega)]
    rfl
  | @member room b n ds b' w v hb hn hb' h ih =>
    intro fuel rest hf hr
    simp only [List.length_append, List.length_cons] at hf
    obtain ⟨tail, he, ht⟩ := ih fuel rest (by omega) hr
    refine ⟨n ++ '"' :: (b' ++ ':' :: (w ++ rest)), b' ++ ':' :: (w ++ rest), tail, ?_, ?_, ?_, ht⟩
    · simp only [List.append_assoc, List.cons_append, skipSpace_blanks hb]
      exact skipSpace_of_not_blank rfl _
    · exact quotedString_eq_some_iff.mpr ⟨n, ds, rfl, hn, rfl⟩
    · rw [memberValue, skipSpace_blanks hb', skipSpace_of_not_blank rfl]
      exact he
  | lastMember h ih =>
    rintro fuel (_ | n) rest hf hn
    · cases hn
    obtain ⟨inner, after, tail, hs, hq, he, ht⟩ := ih fuel ('}' :: rest) hf (brace _)
    rw [hs, Json.members, hq]
    simp only [he, ht, skipSpace_of_not_blank (c := '}') rfl]
    rfl
  | moreMembers h hs ih ihs =>
    rintro fuel (_ | n) rest hf hn
    · cases hn
    simp only [List.length_append, List.length_cons] at hf hn
    obtain ⟨inner, after, tail, hs, hq, he, ht⟩ := ih fuel (',' :: (_ ++ '}' :: rest)) (by omega) (comma _)
    simp only [List.append_assoc, List.cons_append]
    rw [hs, Json.members, hq]
    simp only [he, ht, skipSpace_of_not_blank (c := ',') rfl]
    rw [ihs fuel n rest (by omega) (by omega)]
    rfl

/-! ## What is read was spelled -/

theorem spells_of_scalar {d : Draft} (h : scalar cs = (d, some rest)) (hd : d.whole) (room : Nat) :
    ∃ w v, cs = w ++ rest ∧ d = v.toDraft ∧ Spells room w (.value v) := by
  unfold scalar at h
  split at h
  · cases h
    exact ⟨_, .null, rfl, rfl, .null⟩
  · cases h
    exact ⟨_, .bool true, rfl, rfl, .yes⟩
  · cases h
    exact ⟨_, .bool false, rfl, rfl, .no⟩
  · split at h
    · next hq =>
      cases h
      obtain ⟨w, ds, rfl, hw, rfl⟩ := quotedString_eq_some_iff.mp hq
      refine ⟨'"' :: w ++ ['"'], .string (String.ofList ds), by simp, rfl, .string hw⟩
    · cases h
      cases hd
    · cases h
  · split at h
    · next hs =>
      split at h
      · next hn =>
        cases h
        obtain ⟨w, rfl, hw⟩ := numberText_of_spelling hs
        exact ⟨w, .number _, rfl, rfl, .number hw hn⟩
      · cases h
        cases hd
    · cases h

/-- What is known of a reader of elements: what it reads, if it is whole, is a value with its text. -/
def Faithful (room : Nat) (el : List Char → Reading) : Prop :=
  ∀ cs d rest, el cs = (d, some rest) → d.whole →
    ∃ w v, cs = w ++ rest ∧ d = v.toDraft ∧ Spells room w (.value v)

theorem Draft.settleAll_of_whole {ds : List Draft} {closed : Bool} (h : (array ds closed).whole) :
    (settleAll ds).isSome := by
  unfold whole settle at h
  split at h
  · rwa [Option.isSome_map] at h
  · cases h

theorem Draft.settleMembers_of_whole {ds : List (Option String × Draft)} {closed : Bool}
    (h : (object ds closed).whole) : (settleMembers [] ds).isSome := by
  unfold whole settle at h
  split at h
  · rwa [Option.isSome_map] at h
  · cases h

theorem Draft.settleAll_cons_isSome {d : Draft} {ds : List Draft} (h : (settleAll (d :: ds)).isSome) :
    d.whole ∧ (settleAll ds).isSome := by
  unfold settleAll at h
  split at h
  · next hd hs => exact ⟨by rw [whole, hd]; rfl, by rw [hs]; rfl⟩
  · cases h

theorem Draft.settleMembers_cons_isSome {n : Option String} {d : Draft}
    {ds : List (Option String × Draft)} {sofar : Members}
    (h : (settleMembers sofar ((n, d) :: ds)).isSome) :
    ∃ name sofar, n = some name ∧ d.whole ∧ (settleMembers sofar ds).isSome := by
  cases n with
  | none => cases h
  | some name =>
    unfold settleMembers at h
    split at h
    · next hd => exact ⟨name, _, rfl, by rw [whole, hd]; rfl, h⟩
    · cases h

theorem Blanks.append {b b' : List Char} (hb : Blanks b) (hb' : Blanks b') : Blanks (b ++ b') :=
  fun c hc => (List.mem_append.mp hc).elim (hb c) (hb' c)

/-! Blanks may be put before the parts of a container. -/

theorem Spells.blanks_element {room : Nat} {b : List Char} {v : Json} (hb : Blanks b)
    (h : Spells room w (.element v)) : Spells room (b ++ w) (.element v) := by
  cases h with
  | element h₁ h h₂ =>
    simp only [← List.append_assoc]
    exact .element (hb.append h₁) h h₂

theorem Spells.blanks_items {room : Nat} {b : List Char} {vs : List Json} (hb : Blanks b)
    (h : Spells room w (.items vs)) : Spells room (b ++ w) (.items vs) := by
  cases h with
  | lastItem h => exact .lastItem (h.blanks_element hb)
  | item h hs =>
    rw [← List.append_assoc]
    exact .item (h.blanks_element hb) hs

theorem Spells.blanks_member {room : Nat} {b : List Char} {n : String} {v : Json} (hb : Blanks b)
    (h : Spells room w (.member n v)) : Spells room (b ++ w) (.member n v) := by
  cases h with
  | member h₁ hn h₂ h =>
    simp only [← List.append_assoc]
    exact .member (hb.append h₁) hn h₂ h

theorem Spells.blanks_members {room : Nat} {b : List Char} {ms : Members} (hb : Blanks b)
    (h : Spells room w (.members ms)) : Spells room (b ++ w) (.members ms) := by
  cases h with
  | lastMember h => exact .lastMember (h.blanks_member hb)
  | moreMembers h hs =>
    rw [← List.append_assoc]
    exact .moreMembers (h.blanks_member hb) hs

/-- An element and the blanks behind it. -/
theorem Faithful.element {room : Nat} (hel : Faithful room el) {d : Draft} (h : el cs = (d, some rest))
    (hd : d.whole) :
    ∃ w v, cs = w ++ skipSpace rest ∧ d = v.toDraft ∧ Spells room w (.element v) := by
  obtain ⟨w, v, rfl, hv, hw⟩ := hel _ _ _ h hd
  obtain ⟨b, hb, hr⟩ := exists_blanks rest
  refine ⟨w ++ b, v, ?_, hv, .element .nil hw hb⟩
  rw [List.append_assoc, ← hr]

theorem Faithful.items {room : Nat} (hel : Faithful room el) {ds : List Draft} {n : Nat}
    (h : items el n cs = (ds, some rest)) (hd : (Draft.settleAll ds).isSome) :
    ∃ w vs, cs = w ++ ']' :: rest ∧ ds = itemDrafts vs ∧ Spells room w (.items vs) := by
  induction n generalizing cs ds with
  | zero => cases h
  | succ n ih =>
    unfold Json.items at h
    split at h
    · cases h
    next d after he =>
      split at h
      · next more hs =>
        obtain ⟨hds, hr⟩ := Prod.mk.inj h
        subst hds
        obtain ⟨hw, hds⟩ := Draft.settleAll_cons_isSome hd
        obtain ⟨w, v, rfl, rfl, hv⟩ := hel.element he hw
        obtain ⟨ws, vs, hc, hi, hvs⟩ := ih (Prod.ext rfl hr) hds
        obtain ⟨b, hb, hm⟩ := exists_blanks more
        refine ⟨w ++ ',' :: (b ++ ws), v :: vs, ?_, ?_, .item hv (hvs.blanks_items hb)⟩
        · rw [hs, hm, hc]
          simp only [List.append_assoc, List.cons_append]
        · exact congrArg (_ :: ·) hi
      · next more hs =>
        cases h
        obtain ⟨hw, _⟩ := Draft.settleAll_cons_isSome hd
        obtain ⟨w, v, rfl, rfl, hv⟩ := hel.element he hw
        exact ⟨w, [v], by rw [hs], rfl, .lastItem hv⟩
      · cases h

theorem Faithful.member {room : Nat} (hel : Faithful room el) {name : Option String} {d : Draft}
    {after : List Char} (hq : quotedString cs = some (name, after))
    (h : memberValue el after = (d, some rest)) {n : String} (hn : name = some n) (hd : d.whole) :
    ∃ w v, '"' :: cs = w ++ skipSpace rest ∧ d = v.toDraft ∧ Spells room w (.member n v) := by
  subst hn
  obtain ⟨q, ds, rfl, hw, rfl⟩ := quotedString_eq_some_iff.mp hq
  unfold memberValue at h
  split at h
  · next more hs =>
    obtain ⟨w, v, hc, hv, hwv⟩ := hel.element h hd
    obtain ⟨b, hb, ha⟩ := exists_blanks after
    obtain ⟨b', hb', hm⟩ := exists_blanks more
    refine ⟨[] ++ '"' :: q ++ '"' :: b ++ ':' :: (b' ++ w), v, ?_, hv,
      .member .nil hw hb (hwv.blanks_element hb')⟩
    rw [ha, hs, hm, hc]
    simp only [List.append_assoc, List.cons_append, List.nil_append]
  · cases h

theorem Faithful.members {room : Nat} (hel : Faithful room el) {ds : List (Option String × Draft)}
    {n : Nat} (h : members el n cs = (ds, some rest)) {sofar : Members}
    (hd : (Draft.settleMembers sofar ds).isSome) :
    ∃ w ms, cs = w ++ '}' :: rest ∧ ds = memberDrafts ms ∧ Spells room w (.members ms) := by
  induction n generalizing cs ds sofar with
  | zero => cases h
  | succ n ih =>
    unfold Json.members at h
    split at h
    · cases h
    · next n' cs hn =>
      cases hn
      split at h
      · cases h
      next name after hq =>
        split at h
        · cases h
        next d tail he =>
          split at h
          · next more hs =>
            obtain ⟨hds, hr⟩ := Prod.mk.inj h
            subst hds
            obtain ⟨name, sofar, hname, hw, hds⟩ := Draft.settleMembers_cons_isSome hd
            obtain ⟨w, v, hc, rfl, hv⟩ := hel.member hq he hname hw
            obtain ⟨ws, ms, hcs, hi, hms⟩ := ih (Prod.ext rfl hr) hds
            obtain ⟨b, hb, hm⟩ := exists_blanks more
            refine ⟨w ++ ',' :: (b ++ ws), (name, v) :: ms, ?_, ?_,
              .moreMembers hv (hms.blanks_members hb)⟩
            · rw [hc, hs, hm, hcs]
              simp only [List.append_assoc, List.cons_append]
            · rw [hname]
              exact congrArg (_ :: ·) hi
          · next more hs =>
            cases h
            obtain ⟨name, _, hname, hw, _⟩ := Draft.settleMembers_cons_isSome hd
            obtain ⟨w, v, hc, rfl, hv⟩ := hel.member hq he hname hw
            exact ⟨w, [(name, v)], by rw [hc, hs], by rw [hname]; rfl, .lastMember hv⟩
          · cases h
    · cases h

theorem Faithful.arrayRest {room : Nat} (hel : Faithful room el) {d : Draft} {fuel : Nat}
    (h : arrayRest el fuel cs = (d, some rest)) (hd : d.whole) :
    ∃ w v, '[' :: cs = w ++ rest ∧ d = v.toDraft ∧ Spells (room + 1) w (.value v) := by
  obtain ⟨b, hb, hc⟩ := exists_blanks cs
  unfold Json.arrayRest at h
  split at h
  · next hs =>
    cases h
    refine ⟨'[' :: b ++ [']'], .array [], ?_, rfl, .emptyArray hb⟩
    rw [hc, hs]
    simp
  · obtain ⟨rfl, hr⟩ := Prod.mk.inj h
    rw [hr] at hd
    obtain ⟨w, vs, hw, hvs, hsp⟩ := hel.items (Prod.ext rfl hr) (Draft.settleAll_of_whole hd)
    refine ⟨'[' :: (b ++ w) ++ [']'], .array vs, ?_, ?_, .array (hsp.blanks_items hb)⟩
    · rw [hc, hw]
      simp
    · rw [hr]
      exact congrArg (Draft.array · true) hvs

theorem Faithful.objectRest {room : Nat} (hel : Faithful room el) {d : Draft} {fuel : Nat}
    (h : objectRest el fuel cs = (d, some rest)) (hd : d.whole) :
    ∃ w v, '{' :: cs = w ++ rest ∧ d = v.toDraft ∧ Spells (room + 1) w (.value v) := by
  obtain ⟨b, hb, hc⟩ := exists_blanks cs
  unfold Json.objectRest at h
  split at h
  · next hs =>
    cases h
    refine ⟨'{' :: b ++ ['}'], .object [], ?_, rfl, .emptyObject hb⟩
    rw [hc, hs]
    simp
  · obtain ⟨rfl, hr⟩ := Prod.mk.inj h
    rw [hr] at hd
    obtain ⟨w, ms, hw, hms, hsp⟩ := hel.members (Prod.ext rfl hr) (Draft.settleMembers_of_whole hd)
    refine ⟨'{' :: (b ++ w) ++ ['}'], .object ms, ?_, ?_, .object (hsp.blanks_members hb)⟩
    · rw [hc, hw]
      simp
    · rw [hr]
      exact congrArg (Draft.object · true) hms

theorem reading_of_withRoom {room : Nat} {r : Reading} {d : Draft} (h : withRoom room r = (d, some rest))
    (hd : d.whole) : ∃ k, room = k + 1 ∧ r = (d, some rest) := by
  cases room with
  | succ k => exact ⟨k, rfl, h⟩
  | zero =>
    obtain ⟨hu, -⟩ := Prod.mk.inj h
    rw [← hu] at hd
    split at hd <;> cases hd

theorem faithful_element (fuel room : Nat) : Faithful room (element fuel room) := by
  induction fuel generalizing room with
  | zero => exact fun cs d rest h => nomatch h
  | succ fuel ih =>
    intro cs d rest h hd
    unfold element at h
    split at h
    · cases h
    · next hf =>
      cases hf
      obtain ⟨room, rfl, h⟩ := reading_of_withRoom h hd
      exact (ih room).arrayRest h hd
    · next hf =>
      cases hf
      obtain ⟨room, rfl, h⟩ := reading_of_withRoom h hd
      exact (ih room).objectRest h hd
    · exact spells_of_scalar h hd _

/-! ## Whole texts -/

theorem Writes.read {v : Json} (h : Writes cs v) : Source.ofChars cs = ⟨v.toDraft, true⟩ := by
  obtain ⟨tail, he, hnil⟩ := Spells.read h (cs.length + maxDepth + 1) [] (by omega) fun _ hc => nomatch hc
  rw [List.append_nil] at he
  unfold Source.ofChars
  rw [he]
  change Source.mk v.toDraft (skipSpace tail).isEmpty = _
  rw [hnil]
  rfl

theorem writes_of_source {d : Draft} (h : Source.ofChars cs = ⟨d, true⟩) (hd : d.whole) :
    ∃ v, d = v.toDraft ∧ Writes cs v := by
  unfold Source.ofChars at h
  split at h
  · next d' rest he =>
    obtain ⟨rfl, hend⟩ := Source.mk.inj h
    obtain ⟨w, v, hw, hv, hsp⟩ := faithful_element _ _ _ _ _ he hd
    obtain ⟨b, hb, hs⟩ := exists_blanks cs
    obtain ⟨b', hb', hr⟩ := exists_blanks rest
    refine ⟨v, hv, ?_⟩
    rw [hs, hw, hr, List.isEmpty_iff.mp hend, List.append_nil, ← List.append_assoc]
    exact .element hb hsp hb'
  · cases h

/-- The reader decides what a text writes. -/
theorem writes_iff {v : Json} : Writes cs v ↔ Source.ofChars cs = ⟨v.toDraft, true⟩ := by
  refine ⟨Writes.read, fun h => ?_⟩
  obtain ⟨t, ht, hw⟩ := writes_of_source h v.whole_toDraft
  exact toDraft_injective ht ▸ hw

/-- **A text has a value if and only if it is JSON, and the value is the one it stands for.** -/
theorem read?_eq_some_iff {s : String} {v : Json} :
    read? s = some v ↔ ∃ t, Writes s.toList t ∧ v = t.settled := by
  unfold read? Source.ofString
  constructor
  · intro h
    cases hx : Source.ofChars s.toList with
    | mk d ended =>
      rw [hx] at h
      cases ended with
      | false => cases h
      | true =>
        have hd : d.settle = some v := h
        obtain ⟨t, rfl, hw⟩ := writes_of_source hx (by rw [Draft.whole, hd]; rfl)
        rw [settle_toDraft] at hd
        exact ⟨t, hw, (Option.some.inj hd).symm⟩
  · rintro ⟨t, ht, rfl⟩
    rw [ht.read]
    exact settle_toDraft t

end Converse.Json
