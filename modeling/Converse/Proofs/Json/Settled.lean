import Converse.Json.Draft
import Mathlib.Data.String.Basic

/-
  What a value means once it is settled.

  The reader keeps what a text writes as it is written; `settled` is what the text stands for: members sorted
  by name, of one name the last. `settle_toDraft` says that the reader finds just that. A value is `Sorted` if
  every object in it has its members in order, each name once; settling makes a value so and leaves it so.
-/

namespace Converse.Json

/-- Induction over a value and all that it contains. -/
@[elab_as_elim]
theorem induction {P : Json → Prop} (null : P .null) (bool : ∀ b, P (.bool b))
    (number : ∀ n, P (.number n)) (string : ∀ s, P (.string s))
    (array : ∀ items, (∀ v ∈ items, P v) → P (.array items))
    (object : ∀ members : Members, (∀ m ∈ members, P m.2) → P (.object members)) : ∀ v, P v
  | .null => null
  | .bool b => bool b
  | .number n => number n
  | .string s => string s
  | .array items => array items (ofItems items)
  | .object members => object members (ofMembers members)
where
  ofItems : ∀ items : List Json, ∀ v ∈ items, P v
  | [] => by simp
  | v :: items => List.forall_mem_cons.mpr
      ⟨induction null bool number string array object v, ofItems items⟩
  ofMembers : ∀ members : Members, ∀ m ∈ members, P m.2
  | [] => by simp
  | (_, v) :: members => List.forall_mem_cons.mpr
      ⟨induction null bool number string array object v, ofMembers members⟩

/-! ## Settling -/

mutual

/-- The value with the members of every object sorted by name, of one name the last. -/
def settled : Json → Json
  | .null => .null
  | .bool b => .bool b
  | .number n => .number n
  | .string s => .string s
  | .array items => .array (settledItems items)
  | .object members => .object (settledMembers [] members)

def settledItems : List Json → List Json
  | [] => []
  | v :: rest => settled v :: settledItems rest

def settledMembers (sofar : Members) : Members → Members
  | [] => sofar
  | (n, v) :: rest => settledMembers (sofar.put n (settled v)) rest

end

theorem settledItems_eq_map (items : List Json) : settledItems items = items.map settled := by
  induction items with
  | nil => rfl
  | cons v items ih => rw [settledItems, ih, List.map_cons]

theorem settleAll_itemDrafts {items : List Json}
    (h : ∀ v ∈ items, v.toDraft.settle = some v.settled) :
    Draft.settleAll (itemDrafts items) = some (settledItems items) := by
  induction items with
  | nil => rfl
  | cons v items ih =>
    obtain ⟨hv, hi⟩ := List.forall_mem_cons.mp h
    rw [itemDrafts, Draft.settleAll, hv, ih hi, settledItems]

theorem settleMembers_memberDrafts {members : Members}
    (h : ∀ m ∈ members, m.2.toDraft.settle = some m.2.settled) (sofar : Members) :
    Draft.settleMembers sofar (memberDrafts members) = some (settledMembers sofar members) := by
  induction members generalizing sofar with
  | nil => rfl
  | cons m members ih =>
    obtain ⟨n, v⟩ := m
    obtain ⟨hv, hi⟩ := List.forall_mem_cons.mp h
    rw [memberDrafts, Draft.settleMembers, hv, settledMembers]
    exact ih hi _

/-- What a text stands for, of which the value is written. -/
theorem settle_toDraft (v : Json) : v.toDraft.settle = some v.settled := by
  induction v using Json.induction with
  | array items ih =>
    rw [toDraft, Draft.settle, settleAll_itemDrafts ih]
    rfl
  | object members ih =>
    rw [toDraft, Draft.settle, settleMembers_memberDrafts ih]
    rfl
  | _ => rfl

theorem whole_toDraft (v : Json) : v.toDraft.whole = true := by
  rw [Draft.whole, settle_toDraft]
  rfl

theorem orderly_toDraft (v : Json) : v.toDraft.orderly = true := by
  induction v using Json.induction with
  | array items ih =>
    rw [toDraft, Draft.orderly, Bool.true_and]
    induction items with
    | nil => rfl
    | cons v items ihs =>
      obtain ⟨hv, hi⟩ := List.forall_mem_cons.mp ih
      rw [itemDrafts, Draft.allOrderly, hv, ihs hi]
      rfl
  | object members ih =>
    rw [toDraft, Draft.orderly, Bool.true_and]
    induction members with
    | nil => rfl
    | cons m members ihs =>
      obtain ⟨hv, hi⟩ := List.forall_mem_cons.mp ih
      rw [memberDrafts, Draft.membersOrderly, hv, ihs hi]
      rfl
  | _ => rfl

/-- A draft shows all of the value that is written. -/
theorem toDraft_injective {v w : Json} (h : v.toDraft = w.toDraft) : v = w := by
  induction v using Json.induction generalizing w with
  | array items ih =>
    cases w with
    | array items' =>
      have hi : itemDrafts items = itemDrafts items' := (Draft.array.inj h).1
      refine congrArg _ ?_
      clear h
      induction items generalizing items' with
      | nil =>
        cases items' with
        | nil => rfl
        | cons => cases hi
      | cons v items ihs =>
        cases items' with
        | nil => cases hi
        | cons v' items' =>
          obtain ⟨hv, hi⟩ := List.cons.inj hi
          obtain ⟨ih, ihi⟩ := List.forall_mem_cons.mp ih
          rw [ih hv, ihs ihi items' hi]
    | _ => cases h
  | object members ih =>
    cases w with
    | object members' =>
      have hi : memberDrafts members = memberDrafts members' := (Draft.object.inj h).1
      refine congrArg _ ?_
      clear h
      induction members generalizing members' with
      | nil =>
        cases members' with
        | nil => rfl
        | cons => cases hi
      | cons m members ihs =>
        cases members' with
        | nil => cases hi
        | cons m' members' =>
          obtain ⟨hm, hi⟩ := List.cons.inj hi
          obtain ⟨hn, hv⟩ := Prod.mk.inj hm
          obtain ⟨ih, ihi⟩ := List.forall_mem_cons.mp ih
          rw [Prod.ext (Option.some.inj hn) (ih hv), ihs ihi members' hi]
    | _ => cases h
  | _ =>
    cases w <;> cases h
    rfl

/-! ## Members in order -/

namespace Members

/-- The members stand in the order of their names, each name once. -/
def Ascending (ms : Members) : Prop := ms.Pairwise (·.1 < ·.1)

theorem mem_put {n : String} {v : Json} {ms : Members} {m : String × Json} (h : m ∈ ms.put n v) :
    m = (n, v) ∨ m ∈ ms := by
  induction ms with
  | nil => exact .inl (List.mem_singleton.mp h)
  | cons k ms ih =>
    unfold put at h
    split at h
    · exact List.mem_cons.mp h
    · split at h
      · rcases List.mem_cons.mp h with h | h
        · exact .inl h
        · exact .inr (List.mem_cons_of_mem _ h)
      · rcases List.mem_cons.mp h with h | h
        · exact .inr (h ▸ List.mem_cons_self)
        · exact (ih h).imp_right (List.mem_cons_of_mem _)

theorem Ascending.put {ms : Members} (h : ms.Ascending) (n : String) (v : Json) :
    (ms.put n v).Ascending := by
  induction ms with
  | nil => exact List.pairwise_singleton _ _
  | cons k ms ih =>
    obtain ⟨hk, hms⟩ := List.pairwise_cons.mp h
    unfold Members.put
    split
    · next hn =>
      refine List.pairwise_cons.mpr ⟨?_, h⟩
      intro m hm
      rcases List.mem_cons.mp hm with rfl | hm
      · exact hn
      · exact lt_trans hn (hk m hm)
    · next hn =>
      split
      · next he =>
        have he : n = k.1 := eq_of_beq he
        exact List.pairwise_cons.mpr ⟨fun m hm => he ▸ hk m hm, hms⟩
      · next he =>
        have hlt : k.1 < n := lt_of_le_of_ne (not_lt.mp hn) fun e => he (beq_iff_eq.mpr e.symm)
        refine List.pairwise_cons.mpr ⟨?_, ih hms⟩
        intro m hm
        rcases mem_put hm with rfl | hm
        · exact hlt
        · exact hk m hm

/-- A member after all others is put at the end. -/
theorem put_of_lt {ms : Members} {n : String} (h : ∀ m ∈ ms, m.1 < n) (v : Json) :
    ms.put n v = ms ++ [(n, v)] := by
  induction ms with
  | nil => rfl
  | cons k ms ih =>
    obtain ⟨hk, hms⟩ := List.forall_mem_cons.mp h
    have he : (n == k.1) = false := beq_eq_false_iff_ne.mpr (ne_of_gt hk)
    unfold put
    rw [if_neg (not_lt.mpr hk.le), he, ih hms]
    rfl

theorem lookup_cons (k n : String) (v : Json) (ms : Members) :
    List.lookup k ((n, v) :: ms) = if k = n then some v else ms.lookup k := by
  rw [List.lookup_cons]
  by_cases h : k = n
  · simp [h]
  · rw [if_neg h, beq_eq_false_iff_ne.mpr h]

/-- The member that was put last is the one that is found. -/
theorem lookup_put (ms : Members) (n : String) (v : Json) (k : String) :
    (ms.put n v).lookup k = if k = n then some v else ms.lookup k := by
  induction ms with
  | nil => rw [put, lookup_cons]
  | cons m ms ih =>
    obtain ⟨n', v'⟩ := m
    unfold put
    split
    · rw [lookup_cons]
    · split
      · next he =>
        have he : n = n' := eq_of_beq he
        rw [lookup_cons, lookup_cons, he]
        split <;> rfl
      · next he =>
        have he : n ≠ n' := fun e => he (beq_iff_eq.mpr e)
        rw [lookup_cons, lookup_cons, ih]
        split
        · next hk => rw [if_neg (hk ▸ he.symm)]
        · rfl

theorem mem_of_lookup {k : String} {v : Json} {ms : Members} (h : ms.lookup k = some v) :
    (k, v) ∈ ms := by
  induction ms with
  | nil => cases h
  | cons m ms ih =>
    rw [lookup_cons] at h
    split at h
    · next hk =>
      cases h
      exact hk ▸ List.mem_cons_self
    · exact List.mem_cons_of_mem _ (ih h)

end Members

/-- Every object in the value has its members in order. -/
inductive Sorted : Json → Prop
  | null : Sorted .null
  | bool (b : Bool) : Sorted (.bool b)
  | number (n : Number) : Sorted (.number n)
  | string (s : String) : Sorted (.string s)
  | array {items : List Json} (h : ∀ v ∈ items, Sorted v) : Sorted (.array items)
  | object {members : Members} (ha : members.Ascending) (h : ∀ m ∈ members, Sorted m.2) :
    Sorted (.object members)

theorem Members.Ascending.settledMembers {sofar : Members} (h : sofar.Ascending) (ms : Members) :
    (settledMembers sofar ms).Ascending := by
  induction ms generalizing sofar with
  | nil => exact h
  | cons m ms ih => exact ih (h.put _ _)

/-- What is found under a name is the last that was written under it. -/
theorem lookup_settledMembers (sofar ms : Members) (k : String) :
    (settledMembers sofar ms).lookup k =
      ((ms.reverse.lookup k).map settled).or (sofar.lookup k) := by
  induction ms generalizing sofar with
  | nil => rfl
  | cons m ms ih =>
    obtain ⟨n, v⟩ := m
    rw [settledMembers, ih, Members.lookup_put, List.reverse_cons, List.lookup_append,
      Members.lookup_cons]
    cases ms.reverse.lookup k with
    | some u => rfl
    | none => split <;> rfl

theorem mem_settledMembers {sofar ms : Members} {m : String × Json}
    (h : m ∈ settledMembers sofar ms) : m ∈ sofar ∨ ∃ k ∈ ms, m = (k.1, k.2.settled) := by
  induction ms generalizing sofar with
  | nil => exact .inl h
  | cons k ms ih =>
    rcases ih h with h | ⟨j, hj, rfl⟩
    · rcases Members.mem_put h with rfl | h
      · exact .inr ⟨k, List.mem_cons_self, rfl⟩
      · exact .inl h
    · exact .inr ⟨j, List.mem_cons_of_mem _ hj, rfl⟩

theorem sorted_settled (v : Json) : v.settled.Sorted := by
  induction v using Json.induction with
  | null => exact .null
  | bool b => exact .bool b
  | number n => exact .number n
  | string s => exact .string s
  | array items ih =>
    rw [settled, settledItems_eq_map]
    exact .array (List.forall_mem_map.mpr ih)
  | object members ih =>
    refine .object (Members.Ascending.settledMembers .nil members) ?_
    intro m hm
    rcases mem_settledMembers hm with hm | ⟨k, hk, rfl⟩
    · cases hm
    · exact ih k hk

theorem settledMembers_of_ascending {sofar ms : Members} (ha : Members.Ascending (sofar ++ ms))
    (h : ∀ m ∈ ms, m.2.settled = m.2) : settledMembers sofar ms = sofar ++ ms := by
  induction ms generalizing sofar with
  | nil => rw [settledMembers, List.append_nil]
  | cons m ms ih =>
    obtain ⟨n, v⟩ := m
    obtain ⟨hv, hms⟩ := List.forall_mem_cons.mp h
    have hlt : ∀ k ∈ sofar, k.1 < n := by
      intro k hk
      exact (List.pairwise_append.mp ha).2.2 k hk (n, v) List.mem_cons_self
    have happ : sofar ++ (n, v) :: ms = (sofar ++ [(n, v)]) ++ ms := by simp
    rw [settledMembers, show v.settled = v from hv, Members.put_of_lt hlt, happ]
    rw [happ] at ha
    exact ih ha hms

theorem Sorted.settled {v : Json} (h : v.Sorted) : v.settled = v := by
  induction h with
  | array _ ih =>
    rw [Json.settled, settledItems_eq_map]
    exact congrArg _ ((List.map_congr_left ih).trans (List.map_id' _))
  | object ha _ ih => exact congrArg _ (settledMembers_of_ascending (List.nil_append _ ▸ ha) ih)
  | _ => rfl

/-! ## Depth -/

mutual

/-- How many containers lie inside one another. -/
def depth : Json → Nat
  | .null => 0
  | .bool _ => 0
  | .number _ => 0
  | .string _ => 0
  | .array items => itemsDepth items + 1
  | .object members => membersDepth members + 1

def itemsDepth : List Json → Nat
  | [] => 0
  | v :: rest => max (depth v) (itemsDepth rest)

def membersDepth : Members → Nat
  | [] => 0
  | (_, v) :: rest => max (depth v) (membersDepth rest)

end

theorem itemsDepth_le_iff {items : List Json} {n : Nat} :
    itemsDepth items ≤ n ↔ ∀ v ∈ items, v.depth ≤ n := by
  induction items with
  | nil => simp [itemsDepth]
  | cons v items ih => rw [itemsDepth, Nat.max_le, ih, List.forall_mem_cons]

theorem membersDepth_le_iff {members : Members} {n : Nat} :
    membersDepth members ≤ n ↔ ∀ m ∈ members, m.2.depth ≤ n := by
  induction members with
  | nil => simp [membersDepth]
  | cons m members ih => rw [membersDepth, Nat.max_le, ih, List.forall_mem_cons]

/-- Settling drops members and deepens nothing. -/
theorem depth_settled_le (v : Json) : v.settled.depth ≤ v.depth := by
  induction v using Json.induction with
  | array items ih =>
    rw [settled, depth, depth, settledItems_eq_map]
    refine Nat.succ_le_succ (itemsDepth_le_iff.mpr (List.forall_mem_map.mpr fun v hv => ?_))
    exact (ih v hv).trans (itemsDepth_le_iff.mp (Nat.le_refl _) v hv)
  | object members ih =>
    rw [settled, depth, depth]
    refine Nat.succ_le_succ (membersDepth_le_iff.mpr fun m hm => ?_)
    rcases mem_settledMembers hm with hm | ⟨k, hk, rfl⟩
    · cases hm
    · exact (ih k hk).trans (membersDepth_le_iff.mp (Nat.le_refl _) k hk)
  | _ => exact Nat.le_refl _

end Converse.Json
