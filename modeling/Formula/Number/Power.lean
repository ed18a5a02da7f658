set_option relaxedAutoImplicit false
set_option autoImplicit false

/-!
# Powers by repeated squaring

A natural power of a double depends on the order of the multiplications. Here the base is squared
once per binary digit of the exponent, and the squares of the digits that are one are multiplied
from the lowest digit up. A power with a negative exponent is the reciprocal of such a power.

## Main definitions

* `Formula.Number.power` — a natural power of a double.
* `Formula.Number.powerInt` — an integer power of a double.
-/

namespace Formula.Number

/-- One binary digit of the exponent: the product takes the current square when the digit is one,
and the square is squared for the next digit. -/
def powerStep (exponent : Nat) (state : Float × Float) (digit : Nat) : Float × Float :=
  (if exponent.testBit digit then state.1 * state.2 else state.1, state.2 * state.2)

/-- **A natural power by repeated squaring.** A power too large for a double is infinite. -/
def power (base : Float) (exponent : Nat) : Float :=
  ((List.range (exponent.log2 + 1)).foldl (powerStep exponent) (1.0, base)).1

/-- **An integer power by repeated squaring.** -/
def powerInt (base : Float) : Int → Float
  | .ofNat n => power base n
  | .negSucc n => 1.0 / power base (n + 1)

/-- A natural power is an integer power. -/
@[simp] theorem powerInt_natCast (base : Float) (n : Nat) :
    powerInt base (n : Int) = power base n := rfl

end Formula.Number
