set_option relaxedAutoImplicit false
set_option autoImplicit false

/-!
# Floating-point numbers as exact dyadic values

A finite double is a natural number times a power of two, with a sign. Exact computations on
doubles (a remainder, the decimal digits of a value) are done on that form in natural numbers.

## Main definitions

* `Formula.Number.Binary` — not a number, an infinity, or a signed dyadic value.
* `Formula.Number.Binary.ofFloat` — the exact value of a double.
* `Formula.Number.Binary.toFloat` — the double with a given exact value.
-/

namespace Formula.Number

/-- **What a double stands for.** A finite value is `± significand * 2 ^ exponent`. -/
inductive Binary where
  | nan
  | infinite (negative : Bool)
  | finite (negative : Bool) (significand : Nat) (exponent : Int)
deriving Repr, DecidableEq

namespace Binary

/-- The least exponent a double has: its values are multiples of `2 ^ leastExponent`. -/
def leastExponent : Int := -1074

/-- **The exact value of a double**, read off its bits: one bit of sign, eleven of exponent,
fifty-two of significand. -/
def ofFloat (x : Float) : Binary :=
  let bits := x.toBits.toNat
  let negative := decide (Nat.pow 2 63 ≤ bits)
  let scale := bits / Nat.pow 2 52 % 2048
  let fraction := bits % Nat.pow 2 52
  if scale = 2047 then
    if fraction = 0 then .infinite negative else .nan
  else if scale = 0 then .finite negative fraction leastExponent
  else .finite negative (Nat.pow 2 52 + fraction) (leastExponent + (scale - 1 : Nat))

/-- The bits of a finite double that equals `significand * 2 ^ exponent`. The significand moves up
to fifty-three bits, or as far as the least exponent allows. -/
def magnitudeBits (significand : Nat) (exponent : Int) : Nat :=
  let room := (exponent - leastExponent).toNat
  let shift := min room (52 - significand.log2)
  let m := significand * Nat.pow 2 shift
  if m < Nat.pow 2 52 then m else (room - shift + 1) * Nat.pow 2 52 + (m - Nat.pow 2 52)

/-- **The double with a given exact value.** A finite value is taken to be representable: its
significand is below `2 ^ 53` and its exponent at least `leastExponent`. -/
def toFloat : Binary → Float
  | nan => 0.0 / 0.0
  | infinite negative => if negative then -(1.0 / 0.0) else 1.0 / 0.0
  | finite negative significand exponent =>
    let x := Float.ofBits (magnitudeBits significand exponent).toUInt64
    if negative then -x else x

end Binary

end Formula.Number
