import Formula.Number.Remainder

set_option relaxedAutoImplicit false
set_option autoImplicit false

/-!
# Operators

The binary operators. There is no precedence among them: a chain applies them strictly from left
to right. Truth values are one and zero.

## Main definitions

* `Formula.Operator` — the operators.
* `Formula.Operator.apply` — what they compute.
* `Formula.Operator.read?` — the operator that a text starts with.
-/

namespace Formula

/-- **The binary operators.** -/
inductive Operator where
  | add | sub | mul | div | rem | pow
  | eq | ne | lt | le | gt | ge
  | or | and | bitOr | bitAnd
deriving Repr, DecidableEq

/-- The number that stands for a truth value. -/
def flag (b : Bool) : Float :=
  if b then 1.0 else 0.0

/-- The truth value that a number stands for: all but zero are true. -/
def truthy (x : Float) : Bool :=
  x != 0.0

/-- The larger of two single-precision numbers. -/
def largerSingle (a b : Float32) : Float32 :=
  if a < b then b else a

/-- **Equality up to single precision**: equal numbers are equal; others are narrowed to single
precision and compared with a relative tolerance of a millionth, which is at least eight times the
least single-precision number. -/
def nearlyEqual (x y : Float) : Bool :=
  if x == y then true
  else
    let a := x.toFloat32
    let b := y.toFloat32
    let tolerance := (1e-6 : Float32) * largerSingle a.abs b.abs
    (b - a).abs < largerSingle tolerance (Float32.ofBits 8)

namespace Operator

/-- **What an operator computes.** The bitwise operators work on 32-bit integers, to which numbers
are truncated; a number out of range gives the nearest integer, and what is no number gives
zero. -/
def apply : Operator → Float → Float → Float
  | add, x, y => x + y
  | sub, x, y => x - y
  | mul, x, y => x * y
  | div, x, y => x / y
  | rem, x, y => Number.remainder x y
  | pow, x, y => x ^ y
  | eq, x, y => flag (nearlyEqual x y)
  | ne, x, y => flag (!nearlyEqual x y)
  | lt, x, y => flag (x < y)
  | le, x, y => flag (x ≤ y)
  | gt, x, y => flag (x > y)
  | ge, x, y => flag (x ≥ y)
  | or, x, y => flag (truthy x || truthy y)
  | and, x, y => flag (truthy x && truthy y)
  | bitOr, x, y => (x.toInt32 ||| y.toInt32).toFloat
  | bitAnd, x, y => (x.toInt32 &&& y.toInt32).toFloat

/-- **The operator that starts with a character**, given the character behind it, and its length.
The longer of two operators is taken; equality may be written once or twice. -/
def read? (c : Char) (next : Option Char) : Option (Operator × Nat) :=
  match c with
  | '+' => some (add, 1)
  | '-' => some (sub, 1)
  | '*' => some (mul, 1)
  | '/' => some (div, 1)
  | '%' => some (rem, 1)
  | '^' => some (pow, 1)
  | '=' => some (eq, if next = some '=' then 2 else 1)
  | '!' => if next = some '=' then some (ne, 2) else none
  | '<' => some (if next = some '=' then (le, 2) else (lt, 1))
  | '>' => some (if next = some '=' then (ge, 2) else (gt, 1))
  | '|' => some (if next = some '|' then (or, 2) else (bitOr, 1))
  | '&' => some (if next = some '&' then (and, 2) else (bitAnd, 1))
  | _ => none

end Operator

end Formula
