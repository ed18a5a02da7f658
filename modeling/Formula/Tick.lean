set_option relaxedAutoImplicit false
set_option autoImplicit false

/-!
# Ticks and clocks

The constants that tell the time are read from one sample of the host's clock, taken once for each
evaluation. A clock may keep state of its own between samples.

## Main definitions

* `Formula.Tick` — one sample of a clock.
* `Formula.Clock` — where samples come from.
* `Formula.Clock.fixed`, `Formula.Clock.sequence` — clocks that follow a given course.
-/

namespace Formula

/-- **One sample of a host's frame clock**, in seconds. -/
structure Tick where
  /-- The time, which the host may scale. -/
  time : Float
  /-- The time without scaling. -/
  unscaledTime : Float
  /-- The time of the last fixed step. -/
  fixedTime : Float
  /-- The length of the last frame. -/
  deltaTime : Float
  /-- The length of a fixed step. -/
  fixedDeltaTime : Float

namespace Tick

/-- The sample of a clock that has not started. -/
def zero : Tick := ⟨0.0, 0.0, 0.0, 0.0, 0.0⟩

/-- The sample of a clock without a frame loop: so many seconds have passed and both deltas are
zero. -/
def elapsed (seconds : Float) : Tick := ⟨seconds, seconds, seconds, 0.0, 0.0⟩

/-- The sample of a clock that stands still at a time, with a given length of frames. -/
def frozen (time delta : Float) : Tick := ⟨time, time, time, delta, delta⟩

end Tick

/-- **A clock**: each sample may depend on the host's state and change it. -/
abbrev Clock (σ : Type) := StateM σ Tick

namespace Clock

variable {σ : Type}

/-- The clock that always shows one tick. -/
def fixed (tick : Tick) : Clock σ := fun state =>
  (tick, state)

/-- The clock that shows the ticks of a sequence in turn. Its state is the number of samples
taken. -/
def sequence (ticks : Nat → Tick) : Clock Nat := fun taken =>
  (ticks taken, taken + 1)

end Clock

end Formula
