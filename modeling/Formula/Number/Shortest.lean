set_option relaxedAutoImplicit false
set_option autoImplicit false

/-!
# The shortest decimal digits of a double

The decimal text of a double has the fewest significant digits that still read back as the same
double, and of those with as few digits it is the nearest one. A decimal with few digits is a
multiple of a large power of ten, so the powers are tried from the largest down: the first whose
grid has a point in the interval of reals that round to the double is taken.

## Main definitions

* `Formula.Number.Interval` — the reals that round to a double, as integers over one denominator.
* `Formula.Number.Shortest.digits` — the digits and the power of ten.
-/

namespace Formula.Number

/-- Which way an exact tie between two decimals of equal length goes. -/
inductive Tie where
  | up
  | even
deriving Repr, DecidableEq

/-- **The interval of reals that round to a value.** All three numbers are counted in one unit,
`scale * 2 ^ exponent` of which is the whole; the ends belong to it when `closed`. -/
structure Interval where
  /-- The lower end. -/
  lower : Nat
  /-- The value itself. -/
  value : Nat
  /-- The upper end. -/
  upper : Nat
  /-- Whether the ends round to the value too. -/
  closed : Bool
  /-- The unit is `2 ^ exponent`. -/
  exponent : Int
deriving Repr, DecidableEq

namespace Interval

/-- **The interval of `m * 2 ^ q`**, a double with significand `m`. The ends lie half a step away;
below a power of two the steps are half as long. The ends round to the even significand. -/
def ofBinary (m : Nat) (q : Int) (least : Int) : Interval :=
  let narrow := decide (m = Nat.pow 2 52 ∧ least < q)
  { lower := if narrow then 4 * m - 1 else 4 * m - 2
    value := 4 * m
    upper := 4 * m + 2
    closed := decide (m % 2 = 0)
    exponent := q - 2 }

/-- Whether `n` times `unit` lies in the interval, where `scale` is the length of its own unit. -/
def holds (i : Interval) (unit scale n : Nat) : Bool :=
  if i.closed then decide (i.lower * scale ≤ n * unit) && decide (n * unit ≤ i.upper * scale)
  else decide (i.lower * scale < n * unit) && decide (n * unit < i.upper * scale)

end Interval

namespace Shortest

/-- Of two neighbours on a grid that both lie in the interval, the nearer one; `n` is the lower,
and `value` lies between `n` and `n + 1` times `unit`. -/
def nearer (tie : Tie) (value unit n : Nat) : Nat :=
  let below := value - n * unit
  let above := (n + 1) * unit - value
  if below < above then n
  else if above < below then n + 1
  else match tie with
    | .up => n + 1
    | .even => if n % 2 = 0 then n else n + 1

/-- **The point of one grid**: the value's two neighbours on the grid of multiples of `unit` are
tried, and the nearer of those in the interval is taken. -/
def pick (tie : Tie) (i : Interval) (unit scale : Nat) : Option Nat :=
  let n := i.value * scale / unit
  match i.holds unit scale n, i.holds unit scale (n + 1) with
  | true, true => some (nearer tie (i.value * scale) unit n)
  | true, false => some n
  | false, true => some (n + 1)
  | false, false => none

/-- The lengths, over one denominator, of the grid's step `10 ^ k` and of the unit `2 ^ e`. -/
def lengths (k e : Int) : Nat × Nat :=
  (Nat.pow 10 k.toNat * Nat.pow 2 (-e).toNat, Nat.pow 2 e.toNat * Nat.pow 10 (-k).toNat)

/-- The powers of ten whose grids are tried, the largest first. No double reaches `10 ^ 309`, and
since seventeen digits tell a double from all others, none needs a grid below `10 ^ -341`. -/
def exponents : List Int :=
  (List.range 651).map fun (i : Nat) => 309 - (i : Int)

/-- Removes the zeros at the end of a decimal, raising its exponent; at most `rounds` of them. -/
def stripZeros : Nat → Nat → Int → Nat × Int
  | 0, n, k => (n, k)
  | rounds + 1, n, k => if n ≠ 0 ∧ n % 10 = 0 then stripZeros rounds (n / 10) (k + 1) else (n, k)

/-- **The shortest digits** of the double `m * 2 ^ q` with `0 < m`: a natural number `n` that does
not end in zero and a power of ten `k`, the decimal being `n * 10 ^ k`. -/
def digits (tie : Tie) (m : Nat) (q least : Int) : Nat × Int :=
  let i := Interval.ofBinary m q least
  let found := exponents.findSome? fun k =>
    let (unit, scale) := lengths k i.exponent
    (pick tie i unit scale).map fun n => stripZeros 20 n k
  found.getD (0, 0)

end Shortest

end Formula.Number
