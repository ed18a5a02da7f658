import Formula.Constant
import Formula.Literal
import Formula.Operator
import Formula.Scanner
import Formula.Text.LetterCase
import Formula.Text.WordChar

set_option relaxedAutoImplicit false
set_option autoImplicit false

/-!
# Expressions

The trees that formulas write, and what they mean. Evaluation builds no trees; they are what its
results are compared with. A chain means the left fold of its operators over the meanings of its
operands, which are taken from left to right.

## Main definitions

* `Formula.Reference`, `Formula.Operand`, `Formula.Chain` — the trees.
* `Formula.Operand.WellFormed` — trees that can be written.
* `Formula.Operand.nesting` — how many levels a tree nests.
* `Formula.Operand.meaning` — the number that a tree stands for.
-/

namespace Formula

/-! ## Trees -/

/-- **What may follow a mark.** -/
inductive Reference where
  /-- The context itself. -/
  | context
  /-- A constant, whose name may start with a minus sign. -/
  | constant (negative : Bool) (name : List Char)
  /-- A member of the context. -/
  | member (names : List (List Char))
  /-- A member of a component of the context. -/
  | component (typeName : List Char) (names : List (List Char))

mutual

/-- **Operands.** -/
inductive Operand where
  /-- A literal, with the digits of its fraction if it has a point. -/
  | literal (whole : List Char) (fraction : Option (List Char))
  /-- A reference. -/
  | reference (target : Reference)
  /-- An operand behind a sign. -/
  | sign (negative : Bool) (body : Operand)
  /-- A chain in parentheses. -/
  | group (body : Chain)
  /-- A call with one argument. -/
  | callOne (function : Builtin) (x : Chain)
  /-- A call with two arguments. -/
  | callTwo (function : Builtin) (x y : Chain)
  /-- An operand that is left out before a closing parenthesis. -/
  | empty

/-- **Chains**: an operand and what follows it. -/
inductive Chain where
  | mk (first : Operand) (rest : Links)

/-- **The links of a chain**: operators with their right operands. -/
inductive Links where
  | nil
  | cons (op : Operator) (right : Operand) (rest : Links)

end

/-! ## Trees that can be written -/

/-- A name: at least one character, all of them characters of names. -/
def IsName (name : List Char) : Prop :=
  name ≠ [] ∧ ∀ c ∈ name, Text.isWordChar c = true

/-- A path: at least one name. -/
def IsPath (names : List (List Char)) : Prop :=
  names ≠ [] ∧ ∀ name ∈ names, IsName name

/-- **References that can be written.** -/
def Reference.WellFormed : Reference → Prop
  | context => True
  | constant negative name =>
    IsName name ∧ (negative = true → name.head?.any Char.isAlpha = true)
  | member names => IsPath names
  | component typeName names => ')' ∉ typeName ∧ IsPath names

/-- **The digits of a literal**: at least one before the point, where they stay below `2 ^ 64`. -/
def Literal.WellFormed (whole : List Char) (fraction : Option (List Char)) : Prop :=
  whole ≠ [] ∧ (∀ c ∈ whole, c.isDigit = true) ∧ (∀ c ∈ fraction.getD [], c.isDigit = true) ∧
    whole.foldl Literal.append 0 < Literal.bound

/-- Whether a chain has no links. -/
def Links.isNil : Links → Bool
  | nil => true
  | cons _ _ _ => false

mutual

/-- **Operands that can be written.** `last` tells that a closing parenthesis follows; only there
may an operand be left out. -/
def Operand.WellFormed (last : Bool) : Operand → Prop
  | .literal whole fraction => Literal.WellFormed whole fraction
  | .reference target => target.WellFormed
  | .sign _ body => body.WellFormed last
  | .group body => body.WellFormed true
  | .callOne f x => f.arity ≠ .two ∧ x.WellFormed true
  | .callTwo f x y => f.arity ≠ .one ∧ x.WellFormed false ∧ y.WellFormed true
  | .empty => last = true

/-- **Chains that can be written**; `last` tells that a closing parenthesis follows. -/
def Chain.WellFormed (last : Bool) : Chain → Prop
  | .mk first rest => first.WellFormed (last && rest.isNil) ∧ rest.WellFormed last

/-- Links that can be written. -/
def Links.WellFormed (last : Bool) : Links → Prop
  | .nil => True
  | .cons _ right rest => right.WellFormed (last && rest.isNil) ∧ rest.WellFormed last

end

/-! ## Nesting -/

mutual

/-- **How many levels an operand nests**: each group, call and sign is one. -/
def Operand.nesting : Operand → Nat
  | .literal _ _ => 0
  | .reference _ => 0
  | .sign _ body => body.nesting + 1
  | .group body => body.nesting + 1
  | .callOne _ x => x.nesting + 1
  | .callTwo _ x y => max x.nesting y.nesting + 1
  | .empty => 0

/-- How many levels a chain nests. -/
def Chain.nesting : Chain → Nat
  | .mk first rest => max first.nesting rest.nesting

/-- How many levels links nest. -/
def Links.nesting : Links → Nat
  | .nil => 0
  | .cons _ right rest => max right.nesting rest.nesting

end

/-! ## Meaning -/

variable {ω σ : Type}

/-- The number at the end of a path, or zero when something on it is absent. -/
def followed (env : Env ω σ) (target : Option ω) (names : List (List Char)) : StateM σ Float := do
  match ← env.model.follow target (names.map String.ofList) with
  | some object => env.model.number object
  | none => return 0.0

/-- **The number that a reference stands for.** -/
def Reference.meaning (env : Env ω σ) : Reference → StateM σ Float
  | context => env.model.number env.context
  | constant negative name =>
    let name := Text.lowerName name
    let name := if negative then '-' :: name else name
    return (constant? (String.ofList name) env.tick).getD 0.0
  | member names => followed env (some env.context) names
  | component typeName names => do
    let name := String.ofList (Text.trimBlanks typeName)
    followed env (← env.model.component env.context name) names

mutual

/-- **The number that an operand stands for**, with the calls that are made on the host. -/
def Operand.meaning (env : Env ω σ) : Operand → StateM σ Float
  | .literal whole fraction => return (Literal.ofDigits whole (fraction.getD [])).toFloat
  | .reference target => target.meaning env
  | .sign negative body => do
    let x ← body.meaning env
    return if negative then -x else x
  | .group body => body.meaning env
  | .callOne f x => do
    let a ← x.meaning env
    return (← f.call env.random (.one a)).getD 0.0
  | .callTwo f x y => do
    let a ← x.meaning env
    let b ← y.meaning env
    return (← f.call env.random (.two a b)).getD 0.0
  | .empty => return 0.0

/-- **The number that a chain stands for**: its operators are applied from left to right. -/
def Chain.meaning (env : Env ω σ) : Chain → StateM σ Float
  | .mk first rest => do
    rest.meaning env (← first.meaning env)

/-- The number that links make of the value of what stands before them. -/
def Links.meaning (env : Env ω σ) : Links → Float → StateM σ Float
  | .nil, value => return value
  | .cons op right rest, value => do
    rest.meaning env (op.apply value (← right.meaning env))

end

end Formula
