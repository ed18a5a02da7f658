import Formula.Proofs.Ledger

set_option relaxedAutoImplicit false
set_option autoImplicit false

/-!
# A bounded store, last in first out

However instances are handed out, written to and given back, any number of them in use at once, no
instance is lost and none is in two places. The one that is handed out is the one that was parked
last; which one that is, is told by the entries of the ledger and not by the order of the pool.

## Main definitions

* `Formula.Ledger.lastParked?` — of the instances that are parked, the one that came back last.
* `Formula.Ledger.Recent` — a list of what is parked, the latest to have come back first.
* `Formula.Ledger.IsStore` — what a bounded store is.

## Main results

* `Formula.Ledger.recent_play` — the pool is such a list.
* `Formula.Ledger.play_isStore` — a ledger that is kept from the start is a bounded store.
-/

namespace Formula

variable {α : Type}

/-- The number of the instance that came back. -/
def Entry.returned? : Entry α → Option Nat
  | issued _ => none
  | returned serial _ => some serial

namespace Ledger

/-- The numbers of the instances that came back, the last first. -/
def returns (l : Ledger α) : List Nat := l.entries.filterMap Entry.returned?

/-- **The instance that was parked last**: of the instances that are parked, the number of the one
that came back last. -/
def lastParked? (l : Ledger α) : Option Nat :=
  l.returns.find? (· ∈ l.parked.map Tagged.serial)

/-! ## The latest first -/

/-- **A list of what is parked, the latest to have come back first**: from each place on, the first
of the list is the one that comes first in a log. -/
def Recent (log : List Nat) : List Nat → Prop
  | [] => True
  | n :: ns => log.find? (· ∈ n :: ns) = some n ∧ Recent log ns

namespace Recent

variable {log ns : List Nat} {n : Nat}

/-- What is not in the list may come back. -/
lemma logged (h : Recent log ns) (hn : n ∉ ns) : Recent (n :: log) ns := by
  induction ns with
  | nil => trivial
  | cons m ns ih =>
    refine ⟨?_, ih h.2 fun hmem => hn (List.mem_cons_of_mem m hmem)⟩
    rw [List.find?_cons_of_neg (by simpa using hn)]
    exact h.1

/-- What comes back may be put in front. -/
lemma cons (h : Recent log ns) (hn : n ∉ ns) : Recent (n :: log) (n :: ns) :=
  ⟨List.find?_cons_of_pos (by simp), h.logged hn⟩

end Recent

/-- With nothing parked none was parked last. -/
lemma lastParked?_of_nil {l : Ledger α} (h : l.parked = []) : l.lastParked? = none := by
  simp [lastParked?, h]

/-- The first of the parked instances was parked last. -/
lemma lastParked?_of_cons {l : Ledger α} (hrecent : Recent l.returns (l.parked.map Tagged.serial))
    {x : Tagged α} {rest : List (Tagged α)} (h : l.parked = x :: rest) :
    l.lastParked? = some x.serial := by
  rw [h] at hrecent
  unfold lastParked?
  rw [h]
  exact hrecent.1

variable [Recyclable α]

/-- **The parked instances are the latest first.**

**Proof sketch.** An instance that is parked has come back just now, and it stands in front. One
that is handed out leaves the others as they are, and one that is discarded is none of them. -/
lemma recent_play (capacity : Nat) (moves : List (Desk.Move α)) :
    let l := (new capacity : Ledger α).play moves
    Recent l.returns (l.parked.map Tagged.serial) := by
  refine (play_induction (P := fun l => Recent l.returns (l.parked.map Tagged.serial)) ?_
    (balanced_new capacity) trivial moves).2
  intro l l' hl hrecent hchange
  cases hchange with
  | made hparked => exact hrecent
  | @reissued x rest pool hparked _ hpool =>
    rw [hparked] at hrecent
    show Recent _ (pool.parked.map Tagged.serial)
    rw [hpool]
    exact hrecent.2
  | @returned slot x pool hx _ _ hpool =>
    show Recent (x.serial :: l.returns) (pool.parked.map Tagged.serial)
    rw [hpool]
    refine hrecent.cons fun hmem => ?_
    obtain ⟨y, hy, heq⟩ := List.mem_map.mp hmem
    exact (hl.ne_serial hx).2 y (List.mem_append_left _ hy) heq
  | @discarded slot x hx _ =>
    show Recent (x.serial :: l.returns) _
    refine hrecent.logged fun hmem => ?_
    obtain ⟨y, hy, heq⟩ := List.mem_map.mp hmem
    exact (hl.ne_serial hx).2 y (List.mem_append_left _ hy) heq
  | written slot f => exact hrecent
  | idle => exact hrecent

/-! ## Stores -/

/-- **What a bounded store is**, last in first out. -/
structure IsStore (capacity : Nat) (l : Ledger α) : Prop where
  /-- No more instances are parked than the capacity allows. -/
  bounded : l.desk.pool.idle ≤ capacity
  /-- What has been made is in use, parked or discarded. -/
  made : l.made = l.desk.live.length + l.desk.pool.idle + l.discarded.length
  /-- No instance is in use twice, or parked twice, or in two of these places. -/
  distinct : (l.instances.map Tagged.serial).Nodup
  /-- The instance that is handed out is the one parked last, which is not parked then. Only with
  nothing parked one is made, and it is new. -/
  acquire : ∃ x : Tagged α, l.acquire.desk.held = l.desk.held ++ [some x] ∧
    x.serial = l.lastParked?.getD l.made ∧
    l.acquire.parked = l.parked.filter (fun y => y.serial ≠ x.serial) ∧
    l.acquire.made = (if l.parked = [] then l.made + 1 else l.made) ∧
    (l.parked = [] → x = (Tagged.blank l.made).recycle) ∧
    (∀ y ∈ l.parked, y.serial = x.serial → x = y.recycle) ∧
    l.acquire.discarded = l.discarded
  /-- An instance that is given back is parked, and only if the pool is full it is discarded. -/
  drop : ∀ {slot : Nat} {x : Tagged α}, l.desk.item? slot = some x →
    (l.drop slot).desk.held = l.desk.held.set slot none ∧ (l.drop slot).made = l.made ∧
    if l.desk.pool.idle < capacity then
      (l.drop slot).parked = x.recycle :: l.parked ∧ (l.drop slot).discarded = l.discarded
    else
      (l.drop slot).parked = l.parked ∧ (l.drop slot).discarded = x.recycle :: l.discarded
  /-- An instance that is written to is changed, and no other one. -/
  write : ∀ (slot : Nat) (f : α → α),
    (l.write slot f).desk.item? slot = (l.desk.item? slot).map (Tagged.onItem f) ∧
    (∀ other ≠ slot, (l.write slot f).desk.item? other = l.desk.item? other) ∧
    (l.write slot f).parked = l.parked ∧ (l.write slot f).discarded = l.discarded ∧
    (l.write slot f).made = l.made

omit [Recyclable α] in
/-- A write changes the instance that it is made to. -/
lemma item?_write (desk : Desk α) (slot : Nat) (f : α → α) (other : Nat) :
    (desk.write slot f).item? other =
      if slot = other then (desk.item? other).map f else desk.item? other := by
  show ((desk.held.modify slot (Option.map f))[other]?).join = _
  rw [List.getElem?_modify]
  unfold Desk.item?
  split
  · rcases desk.held[other]? with _ | _ | x <;> rfl
  · rcases desk.held[other]? with _ | o <;> rfl

/-- **What is handed out was parked last**, and it is new only if nothing was parked. -/
lemma exists_acquired {l : Ledger α} (hl : l.Balanced)
    (hrecent : Recent l.returns (l.parked.map Tagged.serial)) :
    ∃ x : Tagged α, l.acquire.desk.held = l.desk.held ++ [some x] ∧
      x.serial = l.lastParked?.getD l.made ∧
      l.acquire.parked = l.parked.filter (fun y => y.serial ≠ x.serial) ∧
      l.acquire.made = (if l.parked = [] then l.made + 1 else l.made) ∧
      (l.parked = [] → x = (Tagged.blank l.made).recycle) ∧
      (∀ y ∈ l.parked, y.serial = x.serial → x = y.recycle) ∧
      l.acquire.discarded = l.discarded := by
  cases hparked : l.parked with
  | nil =>
    rw [acquire_of_nil hparked, lastParked?_of_nil hparked]
    exact ⟨_, rfl, rfl, hparked, rfl, fun _ => rfl, fun _ hy => absurd hy List.not_mem_nil, rfl⟩
  | cons x rest =>
    obtain ⟨pool, -, hrest, hacquire⟩ := acquire_of_cons hl hparked
    rw [hacquire, lastParked?_of_cons hrecent hparked]
    have hnodup : ((x :: rest).map Tagged.serial).Nodup := by
      rw [← hparked]
      refine (List.Sublist.map _ ?_).nodup hl.nodup
      exact (List.sublist_append_right _ _).trans (List.sublist_append_left _ _)
    have hrest' : ∀ y ∈ rest, y.serial ≠ x.serial :=
      fun y hy heq => (List.nodup_cons.mp hnodup).1 (List.mem_map.mpr ⟨y, hy, heq⟩)
    refine ⟨x.recycle, rfl, rfl, ?_, rfl, fun h => absurd h (List.cons_ne_nil _ _), ?_, rfl⟩
    · show pool.parked = _
      rw [hrest, List.filter_cons_of_neg (by simp [Tagged.recycle])]
      exact (List.filter_eq_self.mpr fun y hy => decide_eq_true (hrest' y hy)).symm
    · intro y hy heq
      rcases List.mem_cons.mp hy with rfl | hy
      · rfl
      · exact absurd heq (hrest' y hy)

/-- **A pool is a bounded store, last in first out**: for every capacity and every sequence of
moves, in any order and with any number of instances in use at once. The ledger's desk without its
tags is the desk on which the same moves are made. -/
theorem play_isStore (capacity : Nat) (moves : List (Desk.Move α)) :
    let l := (new capacity : Ledger α).play moves
    l.desk.map Tagged.item = (Desk.new capacity).play moves ∧ l.IsStore capacity := by
  intro l
  have hl : l.Balanced := balanced_play capacity moves
  have hcapacity : l.desk.pool.capacity = capacity := capacity_play capacity moves
  refine ⟨items_play (new capacity) moves, ?_, hl.made_eq, hl.nodup,
    exists_acquired hl (recent_play capacity moves), ?_, ?_⟩
  · rw [← hcapacity]
    exact l.desk.pool.idle_le_capacity
  · intro slot x hx
    rw [← hcapacity]
    by_cases hroom : l.desk.pool.idle < l.desk.pool.capacity
    · obtain ⟨pool, -, hparked, hdrop⟩ := drop_of_room hx hroom
      rw [hdrop, if_pos hroom]
      exact ⟨rfl, rfl, hparked, rfl⟩
    · rw [drop_of_full hx hl hroom, if_neg hroom]
      exact ⟨rfl, rfl, rfl, rfl⟩
  · intro slot f
    refine ⟨?_, fun other hne => ?_, rfl, rfl, rfl⟩
    · exact (item?_write l.desk slot _ slot).trans (if_pos rfl)
    · exact (item?_write l.desk slot _ other).trans (if_neg fun heq => hne heq.symm)

end Ledger

end Formula
