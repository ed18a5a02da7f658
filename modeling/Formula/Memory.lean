set_option relaxedAutoImplicit false
set_option autoImplicit false

/-!
# Memory

Room for a number of entries is reserved in one block. A block must not be larger than a signed
number of 64 bits can tell, and even a smaller one may be refused. Neither is an error that a caller
could handle: either ends the program, with an exit code of its own.

## Main definitions

* `Formula.Memory` — which blocks are granted.
* `Formula.Memory.Fault` — why there is no room.
* `Formula.Memory.reserve` — reserves room for entries.

## Main results

* `Formula.Memory.reserve_eq_ok_iff` — when there is room.
-/

namespace Formula

/-- **The memory of a program.** -/
structure Memory where
  /-- Whether a block of so many bytes is granted. -/
  grants : Nat → Bool

namespace Memory

/-- The memory that grants whatever a process can address. -/
def addressable : Memory := ⟨fun bytes => decide (bytes < Nat.pow 2 47)⟩

/-- **Why there is no room.** -/
inductive Fault where
  /-- No block is as large. -/
  | tooLarge
  /-- A block of so many bytes is refused. -/
  | refused (bytes : Nat)
deriving Repr, DecidableEq

/-- The wording of a fault. -/
def Fault.message : Fault → String
  | tooLarge => "capacity overflow"
  | refused bytes => "memory allocation of " ++ toString bytes ++ " bytes failed"

/-- The exit code of a program that ends with a fault: that of a panic, or that of an abort as a
shell tells it. -/
def Fault.code : Fault → Nat
  | tooLarge => 101
  | refused _ => 134

/-- Blocks have fewer bytes than this. -/
def bound : Nat := Nat.pow 2 63

/-- **Reserves room** for a number of entries with so many bytes each. Nothing is asked for when
they have none. -/
def reserve (memory : Memory) (size count : Nat) : Except Fault Unit :=
  if bound ≤ size * count then .error .tooLarge
  else if size * count = 0 ∨ memory.grants (size * count) = true then .ok ()
  else .error (.refused (size * count))

/-- **There is room** for entries when a block as large is possible and granted. -/
theorem reserve_eq_ok_iff (memory : Memory) (size count : Nat) :
    memory.reserve size count = .ok () ↔
      size * count < bound ∧ (size * count = 0 ∨ memory.grants (size * count) = true) := by
  unfold reserve
  split
  case isTrue hlarge => exact iff_of_false (by simp) fun h => absurd h.1 (Nat.not_lt.mpr hlarge)
  case isFalse hsmall =>
    rw [and_iff_right (Nat.not_le.mp hsmall)]
    split
    case isTrue hgranted => exact iff_of_true rfl hgranted
    case isFalse hrefused => exact iff_of_false (by simp) hrefused

end Memory

end Formula
