import Formula.Memory

set_option relaxedAutoImplicit false
set_option autoImplicit false

/-!
# Pools

A pool keeps instances that are out of use for use again, up to its capacity. The instance parked
last is handed out first. With none parked a new one is made, and with the pool full an instance
that comes back is discarded; so the capacity bounds what is kept and not what is in use. An
instance is recycled both when it is handed out and when it comes back.

Room for all instances that a pool keeps is reserved when it is made. Without this room there is no
pool.

## Main definitions

* `Formula.Recyclable` — instances that can be wiped for use again.
* `Formula.Pool` — the parked instances.
* `Formula.Pool.new` — a new pool, if there is room for it.
* `Formula.Desk` — a pool together with the instances handed out from it.

## Main results

* `Formula.Pool.idle_le_capacity` — no more instances are parked than the capacity allows.
* `Formula.Pool.idle_acquire`, `Formula.Pool.idle_release` — how many are parked when one has been
  handed out, and when one has come back.
-/

namespace Formula

/-- **Instances that can be used again.** -/
class Recyclable (α : Type) where
  /-- A new instance. -/
  blank : α
  /-- Wipes what must not outlive a use. -/
  recycle : α → α

/-- **A pool of parked instances**, the one parked last first. -/
structure Pool (α : Type) where
  /-- How many instances are kept. -/
  capacity : Nat
  /-- The parked instances. -/
  parked : List α
  /-- There are no more of them than the capacity allows. -/
  bounded : parked.length ≤ capacity := by simp
deriving Repr

namespace Pool

variable {α : Type}

/-- A pool with nothing parked. -/
def empty (capacity : Nat) : Pool α where
  capacity := capacity
  parked := []

/-- **A new pool** for instances with so many bytes each, if there is room for all that it keeps. -/
def new (memory : Memory) (size capacity : Nat) : Except Memory.Fault (Pool α) := do
  memory.reserve size capacity
  return empty capacity

/-- How many instances are parked. -/
def idle (pool : Pool α) : Nat := pool.parked.length

/-- The instance parked last, if there is one, and the pool without it. -/
def take? (pool : Pool α) : Option α × Pool α :=
  match h : pool.parked with
  | [] => (none, pool)
  | x :: rest =>
    (some x, { pool with
      parked := rest
      bounded := by have := pool.bounded; simp only [h, List.length_cons] at this; omega })

/-- The pool with an instance parked, or unchanged when it is full. -/
def put (pool : Pool α) (x : α) : Pool α :=
  if h : pool.parked.length < pool.capacity then
    { pool with
      parked := x :: pool.parked
      bounded := h }
  else pool

variable [Recyclable α]

/-- **Hands out an instance**, recycled: the one parked last, or a new one. -/
def acquire (pool : Pool α) : α × Pool α :=
  let (parked, pool) := pool.take?
  (Recyclable.recycle (parked.getD Recyclable.blank), pool)

/-- **Takes an instance back**, recycled. -/
def release (pool : Pool α) (x : α) : Pool α :=
  pool.put (Recyclable.recycle x)

omit [Recyclable α] in
/-- No more instances are parked than the capacity allows. -/
theorem idle_le_capacity (pool : Pool α) : pool.idle ≤ pool.capacity :=
  pool.bounded

/-- Handing out an instance leaves one fewer parked, if one was. -/
@[simp] theorem idle_acquire (pool : Pool α) :
    pool.acquire.2.idle = pool.idle - 1 := by
  obtain ⟨capacity, parked, bounded⟩ := pool
  cases parked <;> rfl

/-- Handing out an instance leaves the capacity. -/
@[simp] theorem capacity_acquire (pool : Pool α) :
    pool.acquire.2.capacity = pool.capacity := by
  obtain ⟨capacity, parked, bounded⟩ := pool
  cases parked <;> rfl

/-- Taking back an instance leaves one more parked, if there is room. -/
@[simp] theorem idle_release (pool : Pool α) (x : α) :
    (pool.release x).idle = min (pool.idle + 1) pool.capacity := by
  have hbounded := pool.bounded
  unfold release put idle
  split
  · simp only [List.length_cons]
    omega
  · omega

/-- Taking back an instance leaves the capacity. -/
@[simp] theorem capacity_release (pool : Pool α) (x : α) :
    (pool.release x).capacity = pool.capacity := by
  unfold release put
  split <;> rfl

end Pool

/-! ## Instances in use -/

/-- **A desk**: a pool and the instances handed out from it, by the number of their handing out.
The place of an instance that has been given back is empty. -/
structure Desk (α : Type) where
  /-- The pool behind the desk. -/
  pool : Pool α
  /-- The instances handed out. -/
  held : List (Option α)
deriving Repr

namespace Desk

variable {α : Type}

/-- A desk in front of an empty pool. -/
def new (capacity : Nat) : Desk α := ⟨Pool.empty capacity, []⟩

/-- The instance that was handed out under a number, while it is in use. -/
def item? (desk : Desk α) (slot : Nat) : Option α :=
  desk.held[slot]?.join

/-- Writes to an instance in use. -/
def write (desk : Desk α) (slot : Nat) (f : α → α) : Desk α :=
  { desk with held := desk.held.modify slot (Option.map f) }

variable [Recyclable α]

/-- Hands out an instance under the next number. -/
def acquire (desk : Desk α) : Desk α :=
  let (x, pool) := desk.pool.acquire
  ⟨pool, desk.held ++ [some x]⟩

/-- Takes back the instance with a number; nothing happens when it is not in use. -/
def drop (desk : Desk α) (slot : Nat) : Desk α :=
  match desk.item? slot with
  | some x => ⟨desk.pool.release x, desk.held.set slot none⟩
  | none => desk

end Desk

end Formula
