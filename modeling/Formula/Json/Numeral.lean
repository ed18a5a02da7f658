import Formula.Json.Input
import Formula.Json.Value

set_option relaxedAutoImplicit false
set_option autoImplicit false

/-!
# Numbers of JSON texts

A number is an integer part, an optional fraction and an optional power of ten. Its digits are
gathered into a significand of 64 bits; what no longer fits is dropped. A number without fraction
and power that fits in 64 bits stays an integer; any other is the significand as a double, scaled
by a power of ten.

## Main definitions

* `Formula.Json.gather` — the longest run of digits that fits below a bound.
* `Formula.Json.scale` — a significand times a power of ten, as a double.
* `Formula.Json.Reader.numeral` — reads a number behind its sign.
-/

namespace Formula.Json

/-- **The longest run of digits that fits**: digits are appended to a number as long as it stays
below a bound. Gives the number and the digits that were left over. -/
def gather (bound : Nat) : Nat → List Char → Nat × List Char
  | n, [] => (n, [])
  | n, c :: cs =>
    let next := 10 * n + (c.toNat - '0'.toNat)
    if next < bound then gather bound next cs else (n, c :: cs)

/-- The double `10 ^ n`. -/
def tenTo (n : Nat) : Float :=
  Float.ofScientific 1 false n

/-- Divides by a power of ten, in steps that a double can hold. -/
def scaleDown (x : Float) (places : Nat) : Float :=
  if places ≤ 308 then x / tenTo places
  else if x == 0.0 then x
  else scaleDown (x / tenTo 308) (places - 308)
termination_by places

/-- **A significand times a power of ten**, as one multiplication or division of doubles. None when
the result is too large. -/
def scale (significand : Nat) (exponent : Int) : Option Float :=
  let x := significand.toUInt64.toFloat
  if exponent < 0 then some (scaleDown x (-exponent).toNat)
  else if exponent ≤ 308 then
    let y := x * tenTo exponent.toNat
    if y.isInf then none else some y
  else if x == 0.0 then some x
  else none

namespace Reader

/-- Significands are below this bound. -/
def significandBound : Nat := Nat.pow 2 64

/-- Powers of ten are below this bound. -/
def exponentBound : Nat := Nat.pow 2 31

/-- The run of digits that comes next, without reading it. -/
def peekDigits : Reader (List Char) := do
  return (← get).rest.takeWhile Char.isDigit

/-- Reads so many characters. -/
def advanceBy : Nat → Reader Unit
  | 0 => pure ()
  | n + 1 => do
    advance
    advanceBy n

/-- A double with a sign. -/
def signed (negative : Bool) (x : Float) : Json.Number :=
  .real (if negative then -x else x)

/-- A number from its significand and power of ten. -/
def scaled (negative : Bool) (significand : Nat) (exponent : Int) : Reader Json.Number :=
  match scale significand exponent with
  | some x => pure (signed negative x)
  | none => failHere .numberOutOfRange

/-- Reads a power of ten, its mark being next. A power too large for 32 bits makes the number too
large at the digit that shows it, or zero. -/
def power (negative : Bool) (significand : Nat) (start : Int) : Reader Json.Number := do
  advance
  let sign ← peek
  if sign = some '+' ∨ sign = some '-' then advance
  match ← peek with
  | none => fail .endInValue
  | some c =>
    if ¬ c.isDigit then fail .invalidNumber
    else
      let run ← peekDigits
      let (exponent, left) := gather exponentBound 0 run
      if left.isEmpty then
        advanceBy run.length
        scaled negative significand
          (if sign = some '-' then start - exponent else start + exponent)
      else if significand ≠ 0 ∧ sign ≠ some '-' then
        advanceBy (run.length - left.length + 1)
        failHere .numberOutOfRange
      else
        advanceBy run.length
        pure (signed negative 0.0)

/-- What follows the digits of a number: a power of ten or nothing. -/
def powerOrEnd (negative : Bool) (significand : Nat) (exponent : Int) : Reader Json.Number := do
  match ← peek with
  | some c =>
    if c = 'e' ∨ c = 'E' then power negative significand exponent
    else scaled negative significand exponent
  | none => scaled negative significand exponent

/-- Reads a fraction, its point being next. Digits that no longer fit are dropped. -/
def fraction (negative : Bool) (significand : Nat) (exponent : Int) : Reader Json.Number := do
  advance
  let run ← peekDigits
  let (gathered, left) := gather significandBound significand run
  if run.isEmpty then
    match ← peek with
    | some _ => fail .invalidNumber
    | none => fail .endInValue
  else
    advanceBy run.length
    powerOrEnd negative gathered (exponent - (run.length - left.length : Nat))

/-- A number without fraction and power. The negative of zero is a double, and so is a negative
integer below `-2 ^ 63`. -/
def integer (negative : Bool) (significand : Nat) : Json.Number :=
  if ¬ negative then .whole significand
  else if significand = 0 ∨ Nat.pow 2 63 < significand then signed true significand.toUInt64.toFloat
  else .whole (-(significand : Int))

/-- What follows the integer part of a number. -/
def afterInteger (negative : Bool) (significand dropped : Nat) : Reader Json.Number := do
  match ← peek with
  | some '.' => fraction negative significand dropped
  | some c =>
    if c = 'e' ∨ c = 'E' then power negative significand dropped
    else if dropped = 0 then pure (integer negative significand)
    else scaled negative significand dropped
  | none =>
    if dropped = 0 then pure (integer negative significand)
    else scaled negative significand dropped

/-- **Reads a number** behind its sign. A zero stands alone before the point. -/
def numeral (negative : Bool) : Reader Json.Number := do
  match ← peek with
  | none => fail .endInValue
  | some c =>
    if ¬ c.isDigit then fail .invalidNumber
    else if c = '0' then
      advance
      let run ← peekDigits
      if run.isEmpty then afterInteger negative 0 0 else fail .invalidNumber
    else
      let run ← peekDigits
      let (significand, left) := gather significandBound 0 run
      advanceBy run.length
      afterInteger negative significand left.length

end Reader

end Formula.Json
