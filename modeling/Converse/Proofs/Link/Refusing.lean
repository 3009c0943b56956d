import Converse.Link.Relay
import Converse.Proofs.Text.Encoding

/-
  What is said of a request that was refused.

  Only the front of a body is read, and it is the same in whatever pieces the body comes (`front_eq`). From there
  on a refusal is a function of status, headers and front: `failure_of_front`. Of a body that is an object it says
  which message is found, member by member (`setMembers_object`): `failure_of_object`.
-/

namespace Converse

namespace Refusal

open Text.Utf8 (encode readLoosely cutOff)

/-! ## The front of a body -/

/-- **Only what is gathered up to the limit counts**, and it does not matter in which pieces it came. -/
theorem take_gather (sofar : List UInt8) (pieces : List (List UInt8)) :
    (gather sofar pieces).take bodyLimit = (sofar ++ pieces.flatten).take bodyLimit := by
  induction pieces generalizing sofar with
  | nil => rw [gather, List.flatten_nil, List.append_nil]
  | cons piece rest ih =>
    rw [gather]
    split
    · next h => exact (List.take_append_of_le_length h).symm
    · rw [ih, List.flatten_cons, List.append_assoc]

theorem front_eq (r : Http.Response) : front r = r.body.take bodyLimit := take_gather [] r.pieces

/-- Reading takes for ever just if the body falls silent before the limit. -/
theorem waits_iff (r : Http.Response) :
    waits r = true ↔ r.ending = .never ∧ r.body.length < bodyLimit := by
  have hl : min bodyLimit (gather [] r.pieces).length = min bodyLimit r.body.length := by
    rw [← List.length_take, ← List.length_take]
    exact congrArg List.length (front_eq r)
  have hlt : (gather [] r.pieces).length < bodyLimit ↔ r.body.length < bodyLimit := by omega
  rw [waits, Bool.and_eq_true, beq_iff_eq, decide_eq_true_iff, hlt]

/-- What is delivered of trouble: how it closes the link, unless looking into it takes for ever. -/
theorem feed_failing (t : Trouble) :
    (Reception.failing t).feed =
      if t.isEndless then .ofDeliveries [] true
      else .ofDeliveries [.closed (.failed t.failure)] false := by
  have hn : (Relay.Stage.examining t == .closed) = false := by rw [beq_eq_false_iff_ne]; simp
  cases h : t.isEndless <;>
    simp [Reception.feed, Reception.failing, Reception.patience, Reception.attend, Reception.look,
      Relay.ofArrivals, Relay.step, Relay.take, Relay.close, Relay.isClosed, h, hn]

theorem feed_refused {r : Http.Response} (hs : r.status ≠ 200) (hw : waits r = false) :
    (Reception.ofResponse r).feed = .ofDeliveries [.closed (.failed (failure r))] false := by
  have hr : Reception.ofResponse r = .failing (.refused r) := by simp [Reception.ofResponse, hs]
  rw [hr, feed_failing, Trouble.isEndless, hw]
  rfl

/-! ## What a body says -/

section Object

open Json (Draft)

/-- What a member says that is null or text. -/
def textOf : Draft → Option String
  | .string s => some s
  | _ => none

def isText : Draft → Bool
  | .null | .string _ => true
  | _ => false

/-- Whether a member may stand in the object: its name is a text, and what says something is null or text. -/
def fits : Option String × Draft → Bool
  | (none, _) => false
  | (some n, d) => if n = "error" ∨ n = "detail" then isText d else true

/-- What the member of the name says, if it is text. -/
def said (name : String) (members : List (Option String × Draft)) : Option String :=
  (members.lookup (some name)).bind textOf

/-- What the object says: its error, or else its detail. -/
def told (members : List (Option String × Draft)) : Option String :=
  (said "error" members).or (said "detail" members)

/-- What was said so far, and what the member adds. -/
def adding (n : String) (d : Draft) (r : Option String × Option String) :
    Option String × Option String :=
  if n = "error" then (textOf d, r.2) else if n = "detail" then (r.1, textOf d) else r

/-- One member: it is taken in if it fits, and otherwise nothing is read. -/
theorem setMembers_cons {n : String} {d : Draft} {found : List String} (ho : d.orderly = true)
    (hf : n ∉ found) (r : Option String × Option String) (members : List (Option String × Draft)) :
    ∃ found', (∀ k ∈ found', k = n ∨ k ∈ found) ∧
      (shape.setMembers .live found r ((some n, d) :: members)).toOption =
        if fits (some n, d) then
          (shape.setMembers .live found' (adding n d r) members).toOption
        else none := by
  have hc : found.contains n = false := by simpa using hf
  have hcons : ∀ k ∈ n :: found, k = n ∨ k ∈ found := fun k hk => List.mem_cons.mp hk
  by_cases he : n = "error"
  · subst he
    refine ⟨_, hcons, ?_⟩
    rw [Json.Shape.setMembers, hc]
    cases d <;> rfl
  by_cases hd : n = "detail"
  · subst hd
    refine ⟨_, hcons, ?_⟩
    rw [Json.Shape.setMembers, hc]
    cases d <;> rfl
  · refine ⟨found, fun k hk => .inr hk, ?_⟩
    have hn : shape.fields.find? (·.name == n) = none := by
      simp [shape, Json.Field.of, Ne.symm he, Ne.symm hd]
    rw [Json.Shape.setMembers, hn, if_pos ho]
    simp [fits, adding, he, hd]

/-- The record after the members: what they say, or what was said before. -/
theorem setMembers_object (members : List (Option String × Draft)) (found : List String)
    (r : Option String × Option String) (ho : Draft.membersOrderly members = true)
    (hd : (members.map (·.1)).Nodup) (hf : ∀ n ∈ found, some n ∉ members.map (·.1)) :
    ((shape.setMembers .live found r members).toOption.map (·.2)) =
      if members.all fits then
        some (((members.lookup (some "error")).map textOf).getD r.1,
          ((members.lookup (some "detail")).map textOf).getD r.2)
      else none := by
  -- names are different, so no name that was found comes again
  induction members generalizing found r with
  | nil => rfl
  | cons m members ih =>
    obtain ⟨n, d⟩ := m
    rw [Draft.membersOrderly, Bool.and_eq_true] at ho
    rw [List.map_cons, List.nodup_cons] at hd
    cases n with
    | none => rfl
    | some n =>
      have hnf : n ∉ found := fun h => hf n h List.mem_cons_self
      obtain ⟨found', hk, hs⟩ := setMembers_cons ho.1 hnf r members
      have hf' : ∀ k ∈ found', some k ∉ members.map (·.1) := by
        intro k hk'
        rcases hk k hk' with rfl | h
        · exact hd.1
        · exact fun hm => hf k h (List.mem_cons_of_mem _ hm)
      rw [hs, List.all_cons]
      cases hfit : fits (some n, d) with
      | false => rfl
      | true =>
        have hz : members.lookup (some n) = none := by
          rw [List.lookup_eq_none_iff]
          intro m hm
          rw [bne_iff_ne]
          exact fun he => hd.1 (List.mem_map.mpr ⟨m, hm, he.symm⟩)
        have hne : ∀ k, n ≠ k → (some k == some n) = false := by
          intro k hk
          simpa using Ne.symm hk
        rw [if_pos rfl, ih found' _ ho.2 hd.2 hf', Bool.true_and]
        unfold adding
        by_cases he : n = "error"
        · subst he
          simp [List.lookup_cons, hz]
        by_cases hdt : n = "detail"
        · subst hdt
          simp [List.lookup_cons, hz]
        · simp [List.lookup_cons, hne, he, hdt]

theorem ofMembers_object {members : List (Option String × Draft)}
    (ho : Draft.membersOrderly members = true) (hd : (members.map (·.1)).Nodup) :
    (shape.ofMembers .live members true).toOption =
      if members.all fits then some (said "error" members, said "detail" members) else none := by
  have hs := setMembers_object members [] shape.blank ho hd fun _ h => absurd h List.not_mem_nil
  have hn (name : String) : ((members.lookup (some name)).map textOf).getD none = said name members := by
    unfold said
    cases members.lookup (some name) <;> rfl
  have hb : shape.blank = (none, none) := rfl
  rw [hb, hn, hn, ← hb] at hs
  rw [← hs, Json.Shape.ofMembers]
  cases shape.setMembers .live [] shape.blank members with
  | error e => rfl
  | ok x =>
    -- no field has to be there
    have hf : (shape.fields.find? fun f => f.need == .always && !x.1.contains f.name) = none := rfl
    simp only [hf]
    rfl

/-- **The message of a body that is an object**: its error or else its detail, if every member fits, and none
  otherwise. -/
theorem messageOf_object {bytes : List UInt8} {members : List (Option String × Draft)}
    (ht : Json.Source.ofString (readLoosely bytes) = ⟨.object members true, true⟩)
    (ho : Draft.membersOrderly members = true) (hd : (members.map (·.1)).Nodup) :
    messageOf bytes = if members.all fits then told members else none := by
  have hm := ofMembers_object ho hd
  have hdec : shape.decode .live (.object members true) = shape.ofMembers .live members true := rfl
  rw [messageOf, Json.Decoder.ofText, ht]
  dsimp only
  rw [hdec]
  cases hr : shape.ofMembers .live members true with
  | error e =>
    rw [hr] at hm
    split at hm
    · cases hm
    · next h => rw [if_neg h]
  | ok r =>
    rw [hr] at hm
    split at hm
    · next h =>
      cases hm
      rw [if_pos h]
      rfl
    · cases hm

/-- **What is said of a refused request whose response has an object for a body.** Its members are in order
  and have different names, and all of it is read. The message is its error, or else its detail, if those of the
  two that are there are null or text and all names are texts. If one member does not fit, nothing the object
  says is used: the message is the customary reason of the status. -/
theorem failure_of_object (r : Http.Response) (members : List (Option String × Draft))
    (short : r.body.length ≤ bodyLimit)
    (object : Json.Source.ofString (readLoosely r.body) = ⟨.object members true, true⟩)
    (orderly : Draft.membersOrderly members = true) (distinct : (members.map (·.1)).Nodup) :
    let reason := (Http.reason? r.status).getD "request failed"
    let message := (if members.all fits then told members else none).getD reason
    failure r = .status r.status message (Quota.ofHeaders r.headers) ∧
      (message = (told members).getD reason ↔
        members.all fits = true ∨ told members = none ∨ told members = some reason) ∧
      (r.status ≠ 200 → waits r = false →
        (Reception.ofResponse r).feed =
          .ofDeliveries
            [.closed (.failed (.status r.status message (Quota.ofHeaders r.headers)))] false) := by
  intro reason message
  have hf : failure r = .status r.status message (Quota.ofHeaders r.headers) := by
    rw [failure, front_eq, List.take_of_length_le short, messageOf_object object orderly distinct]
  refine ⟨hf, ?_, fun hs hw => hf ▸ feed_refused hs hw⟩
  change (if members.all fits then told members else none).getD reason = _ ↔ _
  cases members.all fits with
  | true => simp
  | false => cases told members <;> simp [eq_comm]

/-- A detail beside an error that is null, and a number that is not looked at. -/
theorem failure_of_object_of_detail :
    let r : Http.Response := ⟨502, [], [encode "\x7b\"error\":null,\"detail\":\"d\",\"code\":7\x7d"],
      .complete⟩
    let members := [(some "error", Draft.null), (some "detail", .string "d"),
      (some "code", .number (.integer 7))]
    Json.Source.ofString (readLoosely r.body) = ⟨.object members true, true⟩ ∧
      failure r = .status 502 "d" none := by
  intro r members
  have hb : r.body = encode "\x7b\"error\":null,\"detail\":\"d\",\"code\":7\x7d" :=
    List.append_nil _
  have hl : r.body.length ≤ bodyLimit := by
    rw [hb, Text.Utf8.length_encode]
    decide
  have ho : Json.Source.ofString (readLoosely r.body) = ⟨.object members true, true⟩ := by
    rw [hb, Text.Utf8.readLoosely_encode]
    rfl
  exact ⟨ho, (failure_of_object r members hl ho rfl (by decide)).1⟩

/-- An error that is no text hides a detail that is. -/
theorem detail_unused :
    let r : Http.Response := ⟨502, [], [encode "\x7b\"error\":5,\"detail\":\"d\"\x7d"], .complete⟩
    let members := [(some "error", Draft.number (.integer 5)), (some "detail", .string "d")]
    r.body.length ≤ bodyLimit ∧
      Json.Source.ofString (readLoosely r.body) = ⟨.object members true, true⟩ ∧
      told members = some "d" ∧ failure r = .status 502 "Bad Gateway" none := by
  intro r members
  have hb : r.body = encode "\x7b\"error\":5,\"detail\":\"d\"\x7d" :=
    List.append_nil _
  have hl : r.body.length ≤ bodyLimit := by
    rw [hb, Text.Utf8.length_encode]
    decide
  have ho : Json.Source.ofString (readLoosely r.body) = ⟨.object members true, true⟩ := by
    rw [hb, Text.Utf8.readLoosely_encode]
    rfl
  refine ⟨hl, ho, rfl, ?_⟩
  rw [failure, front_eq, List.take_of_length_le hl, messageOf_object ho rfl (by decide)]
  rfl

end Object

/-! ## What matters of a response -/

/-- **Only the front of the body matters.** Two responses of the same status and headers whose bodies begin with
  the same bytes, up to the limit, are refused with the same failure, in whatever pieces their bytes come and
  however their bodies end; a body that falls silent before the limit gives none. The message is what the text of
  just the bytes up to the limit says, its error or else its detail, and the customary reason of the status if
  that text says neither or is not to be read. That text is the beginning of the text of the whole body, but for
  U+FFFD where the cut goes through a character; of a body that is text nothing else is lost before the cut. -/
theorem failure_of_front (r r' : Http.Response) (status : r'.status = r.status)
    (headers : r'.headers = r.headers) (front : r'.body.take bodyLimit = r.body.take bodyLimit) :
    let bytes := r.body.take bodyLimit
    let read := shape.decode.ofText (readLoosely bytes)
    let refused (message : Option String) : Failure :=
      .status r.status (message.getD ((Http.reason? r.status).getD "request failed"))
        (Quota.ofHeaders r.headers)
    failure r' = failure r ∧
      (∀ error detail, read = .ok (error, detail) → failure r = refused (error.or detail)) ∧
      (∀ e, read = .error e → failure r = refused none) ∧
      (r.status ≠ 200 → ∀ q ∈ [r, r'],
        (waits q = true ↔ q.ending = .never ∧ q.body.length < bodyLimit) ∧
          (waits q = false →
            (Reception.ofResponse q).feed = .ofDeliveries [.closed (.failed (failure r))] false)) ∧
      bytes.length = min bodyLimit r.body.length ∧
      (∃ text rest, (readLoosely r.body).toList = text ++ rest ∧
        ((readLoosely bytes).toList = text ∨ (readLoosely bytes).toList = text ++ ['\uFFFD'])) ∧
      ∀ text, r.body = encode text → readLoosely bytes = .ofList (cutOff bodyLimit text.toList) := by
  intro bytes read refused
  have hf : failure r' = failure r := by
    rw [failure, failure, front_eq, front_eq, status, headers, front]
  have hr : failure r = refused (messageOf bytes) := by rw [failure, front_eq]
  refine ⟨hf, ?said, ?unsaid, ?fed, List.length_take, ?cut, ?whole⟩
  case said =>
    intro error detail hd
    rw [hr, messageOf, show shape.decode.ofText (readLoosely bytes) = _ from hd]
  case unsaid =>
    intro e he
    rw [hr, messageOf, show shape.decode.ofText (readLoosely bytes) = _ from he]
  case fed =>
    intro hs q hq
    refine ⟨waits_iff q, fun hw => ?_⟩
    have hq : q = r ∨ q = r' := by simpa using hq
    rcases hq with rfl | rfl
    · exact feed_refused hs hw
    · rw [← hf]
      exact feed_refused (status ▸ hs) hw
  case cut =>
    have h := Text.Utf8.readLoosely_front bytes (r.body.drop bodyLimit)
    rwa [List.take_append_drop] at h
  case whole =>
    rintro text ht
    rw [show bytes = (encode text).take bodyLimit from ht ▸ rfl]
    exact Text.Utf8.readLoosely_take bodyLimit text

/-- A body cut inside a character, in other pieces, and with other bytes after the cut; and one in whose error a
  byte is no text. -/
theorem failure_of_front_within_character :
    let start : List UInt8 := List.replicate 4095 0x61
    let r : Http.Response := ⟨502, [], [start, [0xC3, 0xA9]], .complete⟩
    let r' : Http.Response := ⟨502, [], [[], start ++ [0xC3], [], [0x80, 0x62]], .broken⟩
    let garbled : Http.Response := ⟨502, [], [[0x7B, 0x22, 0x65, 0x72, 0x72, 0x6F, 0x72, 0x22, 0x3A],
      [0x22, 0x61, 0xFF, 0x62, 0x22, 0x7D]], .complete⟩
    r'.body ≠ r.body ∧ failure r' = failure r ∧ failure garbled = .status 502 "a\uFFFDb" none := by
  intro start r r' garbled
  have hb : r.body = (start ++ [0xC3]) ++ [0xA9] := by simp [r, Http.Response.body]
  have hb' : r'.body = (start ++ [0xC3]) ++ [0x80, 0x62] := by simp [r', Http.Response.body]
  have hl : (start ++ [0xC3]).length = bodyLimit := by
    rw [List.length_append, List.length_replicate]
    rfl
  have hne : r'.body ≠ r.body := by
    rw [hb, hb']
    exact fun h => by simpa using List.append_cancel_left h
  have front : r'.body.take bodyLimit = r.body.take bodyLimit := by
    rw [hb, hb', ← hl, List.take_left, List.take_left]
  have short : garbled.body.take bodyLimit = garbled.body := List.take_of_length_le (by decide)
  have read : shape.decode.ofText (readLoosely (garbled.body.take bodyLimit)) =
      .ok (some "a\uFFFDb", none) := by
    rw [short]
    dsimp only [garbled]
    rfl
  exact ⟨hne, (failure_of_front r r' rfl rfl front).1,
    (failure_of_front garbled garbled rfl rfl rfl).2.1 _ _ read⟩

end Refusal

end Converse
