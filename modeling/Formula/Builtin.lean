import Formula.Host

set_option relaxedAutoImplicit false
set_option autoImplicit false

/-!
# Builtin functions

The functions a formula can call, by name, with the numbers of arguments they take.

## Main definitions

* `Formula.Builtin` — the functions.
* `Formula.Builtin.named?` — the function with a name.
* `Formula.Builtin.call` — what they compute.

## Main results

* `Formula.Builtin.named?_name`, `Formula.Builtin.name_of_named?` — each function is found under
  its name, and under no other.
* `Formula.Builtin.call_isSome_iff` — a call succeeds exactly when the function takes that many
  arguments.
-/

namespace Formula

/-- **How many arguments a function takes.** -/
inductive Arity where
  | one
  | two
  | oneOrTwo
deriving Repr, DecidableEq

/-- The wording of an arity. -/
def Arity.describe : Arity → String
  | one => "1 argument"
  | two => "2 arguments"
  | oneOrTwo => "1 or 2 arguments"

/-- **The arguments of a call.** -/
inductive Arguments where
  | one (x : Float)
  | two (x y : Float)

/-- Whether a function of some arity takes these arguments. -/
def Arity.admits : Arity → Arguments → Bool
  | one, .one _ => true
  | two, .two _ _ => true
  | oneOrTwo, _ => true
  | _, _ => false

/-- **The builtin functions.** -/
inductive Builtin where
  | abs | sqrt | cos | sin | tan | acos | asin | atan | atan2 | rand | randint
deriving Repr, DecidableEq

namespace Builtin

/-- All functions. -/
def all : List Builtin :=
  [abs, sqrt, cos, sin, tan, acos, asin, atan, atan2, rand, randint]

/-- The name of a function. -/
def name : Builtin → String
  | abs => "abs"
  | sqrt => "sqrt"
  | cos => "cos"
  | sin => "sin"
  | tan => "tan"
  | acos => "acos"
  | asin => "asin"
  | atan => "atan"
  | atan2 => "atan2"
  | rand => "rand"
  | randint => "randint"

/-- **The function with a name**, which is in lower case. -/
def named? (name : String) : Option Builtin :=
  all.find? fun f => f.name == name

/-- How many arguments a function takes. -/
def arity : Builtin → Arity
  | atan2 => .two
  | rand | randint => .oneOrTwo
  | _ => .one

/-- **What a function computes**, or none when it does not take these arguments; then nothing is
drawn. With one argument the random functions draw from zero. -/
def call {σ : Type} (random : RandomSource σ) : Builtin → Arguments → StateM σ (Option Float)
  | abs, .one x => pure (some x.abs)
  | sqrt, .one x => pure (some x.sqrt)
  | cos, .one x => pure (some x.cos)
  | sin, .one x => pure (some x.sin)
  | tan, .one x => pure (some x.tan)
  | acos, .one x => pure (some x.acos)
  | asin, .one x => pure (some x.asin)
  | atan, .one x => pure (some x.atan)
  | atan2, .two y x => pure (some (y.atan2 x))
  | rand, .one max => some <$> random.uniform 0.0 max
  | rand, .two min max => some <$> random.uniform min max
  | randint, .one max => do return some (← random.integer 0 max.toInt64).toFloat
  | randint, .two min max => do
    return some (← random.integer min.toInt64 max.toInt64).toFloat
  | _, _ => pure none

/-- Each function is found under its name. -/
theorem named?_name (f : Builtin) : named? f.name = some f := by
  cases f <;> decide

/-- A function is found under its own name only. -/
theorem name_of_named? {name : String} {f : Builtin} (h : named? name = some f) :
    name = f.name := by
  have hf := List.find?_some h
  exact (eq_of_beq hf).symm

/-- A call succeeds exactly when the function takes that many arguments. -/
theorem call_isSome_iff {σ : Type} (random : RandomSource σ) (f : Builtin) (args : Arguments)
    (s : σ) : ((f.call random args).run s).1.isSome = f.arity.admits args := by
  cases f <;> cases args <;> rfl

end Builtin

end Formula
