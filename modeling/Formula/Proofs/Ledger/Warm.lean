import Formula.Engine
import Formula.Proofs.Ledger

set_option relaxedAutoImplicit false
set_option autoImplicit false

/-!
# Warm pools

As long as no more instances are in use at once than a pool keeps, nothing is made in vain: an
instance is made only when more are in use than ever before, and none is discarded. So behind the
peak of its use a pool makes no instances any more.

## Main definitions

* `Formula.Desk.inUse` — how many instances are in use.
* `Formula.Desk.peak` — the most that are in use at once while moves are made.

## Main results

* `Formula.Desk.peak_le_iff` — the peak is the least bound of the numbers in use behind some of the
  moves.
* `Formula.Ledger.warm_pool` — what has been made and what is parked, told from the peak.
-/

namespace Formula

variable {α : Type}

namespace Desk

/-- How many instances are in use. -/
def inUse (desk : Desk α) : Nat := desk.live.length

variable [Recyclable α]

/-- **The peak of the use of a desk** while moves are made: the most instances that are in use at
once. -/
def peak (desk : Desk α) : List (Move α) → Nat
  | [] => desk.inUse
  | m :: moves => max desk.inUse ((desk.move m).peak moves)

/-- The peak is no more than what is in use at any time may be. -/
lemma peak_le_iff {desk : Desk α} {moves : List (Move α)} {n : Nat} :
    desk.peak moves ≤ n ↔ ∀ before, before <+: moves → (desk.play before).inUse ≤ n := by
  induction moves generalizing desk with
  | nil => simp [peak, play, List.prefix_nil]
  | cons m moves ih =>
    rw [peak, Nat.max_le, ih]
    constructor
    · rintro ⟨hstart, hrest⟩ before hbefore
      rcases List.prefix_cons_iff.mp hbefore with rfl | ⟨before, rfl, hbefore'⟩
      · exact hstart
      · exact hrest before hbefore'
    · intro h
      refine ⟨h [] List.nil_prefix, fun before hbefore => ?_⟩
      exact h (m :: before) ((List.prefix_cons_inj m).mpr hbefore)

/-- No fewer are in use at the peak than at the start. -/
lemma inUse_le_peak (desk : Desk α) (moves : List (Move α)) : desk.inUse ≤ desk.peak moves :=
  peak_le_iff.mp (Nat.le_refl _) [] List.nil_prefix

end Desk

namespace Ledger

/-- As many instances are in use without the tags. -/
lemma inUse_items (l : Ledger α) : (l.desk.map Tagged.item).inUse = l.desk.inUse := by
  show ((l.desk.held.map _).reduceOption).length = _
  rw [List.reduceOption_map, List.length_map]
  rfl

/-- What is in use has been made. -/
lemma Balanced.inUse_le_made {l : Ledger α} (hl : l.Balanced) : l.desk.inUse ≤ l.made := by
  rw [hl.made_eq]
  exact Nat.le_add_right_of_le (Nat.le_add_right _ _)

variable [Recyclable α] {l l' : Ledger α}

/-- **Only a new peak makes an instance, and none is discarded**, while no more have been made than
the pool keeps.

**Proof sketch.** One is made when nothing is parked, and then all that have been made are in use.
None is discarded: the pool is not full as long as one of those made is in use. -/
lemma Change.warm (h : Change l l') (hl : l.Balanced) (hdiscarded : l.discarded = [])
    (hmade : l.made ≤ l.desk.pool.capacity) :
    l'.discarded = [] ∧ l'.made = max l.made l'.desk.inUse := by
  have hcount := hl.made_eq
  rw [hdiscarded, List.length_nil, Nat.add_zero] at hcount
  have hkept (hdiscarded' : l'.discarded = []) (hmade' : l'.made = l.made) :
      l'.discarded = [] ∧ l'.made = max l.made l'.desk.inUse := by
    refine ⟨hdiscarded', ?_⟩
    rw [← hmade']
    exact (Nat.max_eq_left (h.balanced hl).inUse_le_made).symm
  cases h with
  | made hparked =>
    have hidle : l.desk.pool.idle = 0 := congrArg List.length hparked
    refine ⟨hdiscarded, ?_⟩
    show l.made + 1 = max l.made (l.desk.held ++ [some _]).reduceOption.length
    rw [reduceOption_handed, List.length_append, List.length_singleton]
    change _ = max l.made (l.desk.live.length + 1)
    omega
  | @discarded slot x hx hfull =>
    have hlive := List.length_pos_of_mem (Desk.mem_live hx)
    omega
  | reissued _ _ _ => exact hkept hdiscarded rfl
  | returned _ _ _ _ => exact hkept hdiscarded rfl
  | written slot f => exact hkept hdiscarded rfl
  | idle => exact hkept hdiscarded rfl

/-- **What has been made behind some moves** is the peak of the use, if it is more than what had
been made before. -/
lemma warm_play (hl : l.Balanced) (hdiscarded : l.discarded = []) (moves : List (Desk.Move α))
    (hpeak : max l.made ((l.desk.map Tagged.item).peak moves) ≤ l.desk.pool.capacity) :
    (l.play moves).discarded = [] ∧
      (l.play moves).made = max l.made ((l.desk.map Tagged.item).peak moves) := by
  induction moves generalizing l with
  | nil =>
    refine ⟨hdiscarded, (Nat.max_eq_left ?_).symm⟩
    rw [Desk.peak, inUse_items]
    exact hl.inUse_le_made
  | cons m moves ih =>
    have hmove := change_move hl m
    have hpeak_cons : (l.desk.map Tagged.item).peak (m :: moves) =
        max l.desk.inUse (((l.move m).desk.map Tagged.item).peak moves) := by
      rw [Desk.peak, inUse_items, items_move]
    have hstart : l.desk.inUse ≤ l.made := hl.inUse_le_made
    have hnext : (l.move m).desk.inUse ≤ ((l.move m).desk.map Tagged.item).peak moves :=
      inUse_items (l.move m) ▸ Desk.inUse_le_peak _ _
    rw [hpeak_cons] at hpeak ⊢
    obtain ⟨hdiscarded', hmade'⟩ := hmove.warm hl hdiscarded (by omega)
    obtain ⟨hkept, hmade⟩ := ih (hmove.balanced hl) hdiscarded'
      (by rw [hmove.capacity_eq]; omega)
    refine ⟨hkept, hmade.trans ?_⟩
    omega

/-- **A warm pool makes nothing**: in every sequence of moves from an empty pool in which no more
instances are in use at any time than the pool keeps, none is ever discarded, as many have been made
as were in use at the peak so far, and those of them that are not in use are parked. -/
theorem warm_pool (capacity : Nat) (moves : List (Desk.Move α))
    (hlive : ∀ before, before <+: moves →
      ((Desk.new capacity).play before).inUse ≤ capacity) :
    ∀ before, before <+: moves →
      let l := (new capacity : Ledger α).play before
      let desk := (Desk.new capacity : Desk α).play before
      let peak := (Desk.new capacity).peak before
      l.desk.map Tagged.item = desk ∧ l.discarded = [] ∧ l.made = peak ∧
        desk.inUse ≤ peak ∧ desk.pool.idle = peak - desk.inUse := by
  intro before hbefore l desk peak
  have hitems : l.desk.map Tagged.item = desk := items_play (new capacity) before
  have hpeak : peak ≤ capacity :=
    Desk.peak_le_iff.mpr fun earlier hearlier => hlive earlier (hearlier.trans hbefore)
  obtain ⟨hdiscarded, hmade⟩ := warm_play (balanced_new capacity) rfl before
    (by rw [show (new capacity : Ledger α).made = 0 from rfl, Nat.zero_max]; exact hpeak)
  have hmade' : l.made = peak := hmade.trans (Nat.zero_max _)
  have hcount : l.made = l.desk.live.length + l.desk.pool.idle + l.discarded.length :=
    (balanced_play capacity before).made_eq
  rw [hdiscarded, List.length_nil, Nat.add_zero] at hcount
  have huse : desk.inUse = l.desk.live.length := hitems ▸ inUse_items l
  have hidle : desk.pool.idle = l.desk.pool.idle := by
    rw [← hitems]
    exact List.length_map _
  refine ⟨hitems, hdiscarded, hmade', ?_, ?_⟩ <;> omega

/-- On two machines of a pool for two, the third one handed out being the first one again. -/
theorem warm_pool_again :
    let moves : List (Desk.Move Machine) := [.acquire, .acquire, .drop 0, .acquire, .drop 1]
    let l := (new 2 : Ledger Machine).play moves
    l.discarded = [] ∧ l.made = 2 ∧ ((Desk.new 2).play moves).pool.idle = 1 := by
  intro moves l
  have hpeak : (Desk.new 2 : Desk Machine).peak moves ≤ 2 := by decide
  obtain ⟨-, hdiscarded, hmade, -, hidle⟩ :=
    warm_pool 2 moves (Desk.peak_le_iff.mp hpeak) moves List.prefix_rfl
  exact ⟨hdiscarded, hmade, hidle⟩

end Ledger

end Formula
