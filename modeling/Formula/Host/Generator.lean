import Formula.Host

set_option relaxedAutoImplicit false
set_option autoImplicit false

/-!
# Drawing random numbers

A source of random numbers that needs no host: a generator whose state is one word. Its draws lie
between the bounds in whichever order these are given, and bounds that leave no choice give the
lower one.

## Main definitions

* `Formula.Generator` — the state of a generator.
* `Formula.RandomSource.generator` — its draws.
-/

namespace Formula

/-- **The state of a generator.** -/
abbrev Generator := UInt64

namespace Generator

/-- Draws a word: the state advances by a fixed odd step, and its bits are mixed. -/
def word : StateM Generator UInt64 := fun seed =>
  let next := seed + 0x9E3779B97F4A7C15
  let a := (next ^^^ (next >>> 30)) * 0xBF58476D1CE4E5B9
  let b := (a ^^^ (a >>> 27)) * 0x94D049BB133111EB
  (b ^^^ (b >>> 31), next)

/-- Draws a number from zero to below one, a multiple of `2 ^ -53`. -/
def fraction : StateM Generator Float := do
  return ((← word) >>> 11).toFloat / 9007199254740992.0

/-- A number brought between two bounds. -/
def clamp (low high x : Float) : Float :=
  if x < low then low else if high < x then high else x

/-- **Draws a number between two bounds.** Equal bounds and bounds that are not finite give the
first one. -/
def uniform (min max : Float) : StateM Generator Float := do
  if min == max || !(min.isFinite && max.isFinite) then return min
  let low := if min ≤ max then min else max
  let high := if min ≤ max then max else min
  let t ← fraction
  return clamp low high (low * (1.0 - t) + high * t)

/-- **Draws an integer between two bounds**, the upper one excluded. Equal bounds give that
bound. -/
def integer (min max : Int64) : StateM Generator Int64 := do
  if min = max then return min
  let low := if min ≤ max then min else max
  let span := (min.toInt - max.toInt).natAbs
  return Int64.ofInt (low.toInt + ((← word).toNat % span : Nat))

end Generator

/-- **The draws of a generator.** -/
def RandomSource.generator : RandomSource Generator where
  uniform := Generator.uniform
  integer := Generator.integer

end Formula
