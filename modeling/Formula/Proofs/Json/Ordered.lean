import Formula.Json.Reader
import Formula.Proofs.Json.Readers

set_option relaxedAutoImplicit false
set_option autoImplicit false

/-!
# Documents that are read are in order

An object is made of its members by insertion, and an insertion keeps the keys in ascending order.
All objects of a text are made in this way, however deep they are nested, so a document that is read
lists all its keys in ascending order.

## Main results

* `Formula.Json.ascending_ofMembers` — an object made of documents in order is in order.
* `Formula.Json.Reader.value_yields` — a document that is read at some level is in order.
* `Formula.Json.ascending_of_read` — a document that a text writes is in order.
-/

namespace Formula.Json

/-! ## Objects that are made -/

/-- An array is in order if its items are. -/
lemma ascendingItems_iff {items : List Json} :
    AscendingItems items ↔ ∀ v ∈ items, v.Ascending := by
  induction items with
  | nil => simp [AscendingItems]
  | cons v items ih => rw [AscendingItems, ih, List.forall_mem_cons]

/-- The values of an object are in order if each of them is. -/
lemma ascendingMembers_iff {members : List (String × Json)} :
    AscendingMembers members ↔ ∀ m ∈ members, m.2.Ascending := by
  induction members with
  | nil => simp [AscendingMembers]
  | cons m members ih => rw [AscendingMembers, ih, List.forall_mem_cons]

/-- The members behind an insertion are the inserted one and some of those before it. -/
lemma mem_insertMember {key : String} {value : Json} {members : List (String × Json)}
    {m : String × Json} (h : m ∈ insertMember key value members) :
    m = (key, value) ∨ m ∈ members := by
  induction members with
  | nil => exact .inl (List.mem_singleton.mp h)
  | cons n rest ih =>
    obtain ⟨k, v⟩ := n
    unfold insertMember at h
    split_ifs at h with hlt heq
    · exact List.mem_cons.mp h
    · exact (List.mem_cons.mp h).imp_right (List.mem_cons_of_mem _)
    · rcases List.mem_cons.mp h with rfl | h
      · exact .inr List.mem_cons_self
      · exact (ih h).imp_right (List.mem_cons_of_mem _)

/-- **An insertion keeps the keys in ascending order.** -/
lemma ascending_insertMember (key : String) (value : Json) {members : List (String × Json)}
    (h : (members.map Prod.fst).Pairwise (· < ·)) :
    ((insertMember key value members).map Prod.fst).Pairwise (· < ·) := by
  induction members with
  | nil => simp [insertMember]
  | cons m rest ih =>
    obtain ⟨k, v⟩ := m
    obtain ⟨hfirst, hrest⟩ := List.pairwise_cons.mp h
    unfold insertMember
    split_ifs with hlt heq
    · refine List.pairwise_cons.mpr ⟨fun k' hk' => ?_, h⟩
      rcases List.mem_cons.mp hk' with rfl | hk'
      · exact hlt
      · exact lt_trans hlt (hfirst k' hk')
    · rw [List.map_cons, heq]
      exact List.pairwise_cons.mpr ⟨hfirst, hrest⟩
    · refine List.pairwise_cons.mpr ⟨fun k' hk' => ?_, ih hrest⟩
      obtain ⟨m, hm, rfl⟩ := List.mem_map.mp hk'
      rcases mem_insertMember hm with rfl | hm
      · exact lt_of_le_of_ne (not_lt.mp hlt) (Ne.symm heq)
      · exact hfirst m.1 (List.mem_map_of_mem hm)

/-- **Objects list their keys in ascending order**, in whatever order the members are given, and are
in order if the values that are given are.

**Proof sketch.** Both are kept by each insertion, and an object without members has both. -/
theorem ascending_ofMembers {given : List (String × Json)}
    (h : ∀ m ∈ given, m.2.Ascending) : (ofMembers given).Ascending := by
  let InOrder (sorted : List (String × Json)) : Prop :=
    (∀ m ∈ sorted, m.2.Ascending) ∧ (sorted.map Prod.fst).Pairwise (· < ·)
  have hempty : InOrder [] := ⟨fun m hm => absurd hm List.not_mem_nil, List.Pairwise.nil⟩
  have hfold : InOrder (given.foldl (fun sorted m => insertMember m.1 m.2 sorted) []) := by
    refine List.foldlRecOn given _ hempty fun sorted hsorted m hm => ⟨fun n hn => ?_, ?_⟩
    · rcases mem_insertMember hn with rfl | hn
      · exact h m hm
      · exact hsorted.1 n hn
    · exact ascending_insertMember m.1 m.2 hsorted.2
  exact ⟨ascendingMembers_iff.mpr hfold.1, hfold.2⟩

/-! ## Documents that are read -/

namespace Reader

variable {one : Reader Json} (hone : ∀ cs, Yields one cs Ascending)

include hone

/-- The items of an array that are read are in order. -/
lemma items_yields (rounds : Nat) {seen : List Json} (hseen : ∀ v ∈ seen, v.Ascending)
    (cs : List Char) : Yields (items one rounds seen) cs fun vs => ∀ v ∈ vs, v.Ascending := by
  induction rounds generalizing seen cs with
  | zero => exact (fail_fails _).yields
  | succ rounds ih =>
    refine .behind fun more rest => ?_
    cases more with
    | true => exact .bind (hone rest) fun v hv => ih (List.forall_mem_cons.mpr ⟨hv, hseen⟩)
    | false => exact .behind fun _ _ => .pure fun v hv => hseen v (List.mem_reverse.mp hv)

/-- The values of an object that are read are in order. -/
lemma members_yields (rounds : Nat) {seen : List (String × Json)}
    (hseen : ∀ m ∈ seen, m.2.Ascending) (cs : List Char) :
    Yields (members one rounds seen) cs fun ms => ∀ m ∈ ms, m.2.Ascending := by
  induction rounds generalizing seen cs with
  | zero => exact (fail_fails _).yields
  | succ rounds ih =>
    refine .behind fun key rest => ?_
    cases key with
    | some key =>
      refine .behind fun _ rest => ?_
      exact .bind (hone rest) fun v hv => ih (List.forall_mem_cons.mpr ⟨hv, hseen⟩)
    | none => exact .behind fun _ _ => .pure fun m hm => hseen m (List.mem_reverse.mp hm)

omit hone

/-- **A document is in order** if those that are nested in it are. -/
lemma valueWith_yields {inner : Option (Reader Json)}
    (hinner : ∀ one ∈ inner, ∀ cs, Yields one cs Ascending) (cs : List Char) :
    Yields (valueWith inner) cs Ascending := by
  -- a scalar is in order whatever its reader does
  have hscalar {α : Type} (m : Reader α) {f : α → Json} (hf : ∀ x, (f x).Ascending)
      (cs : List Char) : Yields (f <$> m) cs Ascending :=
    .map (fun _ _ _ _ => trivial) fun x (_ : True) => hf x
  refine .behind fun token rest => ?_
  cases token with
  | none => exact (fail_fails _).yields
  | some c =>
    dsimp only
    split
    · exact .behind fun _ _ => .behind fun _ _ => .pure trivial
    · exact .behind fun _ _ => .behind fun _ _ => .pure trivial
    · exact .behind fun _ _ => .behind fun _ _ => .pure trivial
    · exact .behind fun _ => hscalar _ fun _ => trivial
    · exact .behind fun _ => hscalar _ fun _ => trivial
    · cases inner with
      | none => exact (fail_fails _).yields
      | some one =>
        refine .behind fun _ _ => .behind fun _ _ => .map (items_yields (hinner one rfl) _ ?_ _) ?_
        · exact fun v hv => absurd hv List.not_mem_nil
        · exact fun vs => ascendingItems_iff.mpr
    · cases inner with
      | none => exact (fail_fails _).yields
      | some one =>
        refine .behind fun _ _ => .behind fun _ _ =>
          .map (members_yields (hinner one rfl) _ ?_ _) ?_
        · exact fun m hm => absurd hm List.not_mem_nil
        · exact fun ms => ascending_ofMembers
    · split
      · exact hscalar _ (f := number) (fun _ => trivial) _
      · exact (fail_fails _).yields

/-- **A document is in order** at whatever level it is read. -/
lemma value_yields (levels : Nat) (cs : List Char) : Yields (value levels) cs Ascending := by
  induction levels generalizing cs with
  | zero => exact valueWith_yields (fun one hone => by cases hone) cs
  | succ levels ih =>
    refine valueWith_yields (fun one hone => ?_) cs
    obtain rfl := Option.some.inj hone
    exact ih

end Reader

/-- **A document that a text writes is in order**: all its objects list their keys in ascending
order, at whatever depth. -/
theorem ascending_of_read {text : String} {v : Json} (h : read text = .ok v) : v.Ascending := by
  refine Reader.Yields.whole ?_ h
  exact .bind (Reader.value_yields nestingLimit _) fun v hv _ => .behind fun _ _ => .pure hv

end Formula.Json
