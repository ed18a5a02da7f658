import Formula.Number.Binary

set_option relaxedAutoImplicit false
set_option autoImplicit false

/-!
# The remainder of a division

The remainder of `x` by `y` is `x - n * y`, where `n` is the quotient without its fraction. It has
the sign of `x` and is exact: both numbers are multiples of the smaller of their two scales, so the
remainder is one of natural numbers.

## Main definitions

* `Formula.Number.remainder` — the remainder of doubles.
-/

namespace Formula.Number

/-- The remainder of `a * 2 ^ p` by `b * 2 ^ q`, as a multiple of `2 ^ min p q`. -/
def dyadicRemainder (a : Nat) (p : Int) (b : Nat) (q : Int) : Nat :=
  (a * Nat.pow 2 (p - min p q).toNat) % (b * Nat.pow 2 (q - min p q).toNat)

/-- **The remainder of doubles**, truncating: not a number when the dividend is infinite or the
divisor zero, the dividend itself when the divisor is infinite, else exact and with the sign of
the dividend. -/
def remainder (x y : Float) : Float :=
  match Binary.ofFloat x, Binary.ofFloat y with
  | .finite negative a p, .finite _ b q =>
    if b = 0 then Binary.nan.toFloat
    else (Binary.finite negative (dyadicRemainder a p b q) (min p q)).toFloat
  | .finite _ _ _, .infinite _ => x
  | _, _ => Binary.nan.toFloat

end Formula.Number
