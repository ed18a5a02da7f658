import Formula.Literal
import Formula.Operator
import Formula.Reference

set_option relaxedAutoImplicit false
set_option autoImplicit false

/-!
# Evaluation

A formula is evaluated while it is read: there are no tokens and no tree. An operand is a literal,
a reference, a call, a group, or an operand behind a sign; a chain is an operand followed by
operators and operands, which are applied as they are met.

Groups, calls and signs are nested one level deeper than what they stand in. The levels that are
left are the measure of the recursion, so evaluation ends for the same reason that nesting is
limited. Within a chain each round reads an operator, so there are at most as many rounds as there
are characters left.

## Main definitions

* `Formula.Scanner.chain` — reads a chain and applies its operators from left to right.
* `Formula.Scanner.operand` — reads an operand that nests at most so many levels.
* `Formula.Evaluator.eval` — evaluates a whole text.
-/

namespace Formula

/-- **What a chain stands in**, and so where it may end. -/
inductive Scope where
  /-- The whole text: the chain ends with it. -/
  | whole
  /-- A group: the chain ends with its parenthesis. -/
  | group
  /-- An argument of a call: the chain ends with a parenthesis or a comma. -/
  | argument
deriving Repr, DecidableEq

/-- **What ended a chain.** -/
inductive Ending where
  | text
  | close
  | comma
deriving Repr, DecidableEq

namespace Scanner

variable {ω σ α : Type}

/-! ## Operands without parts -/

/-- Reads a number literal. -/
def number : Scanner σ Float := do
  match Literal.scan (← cursor) with
  | .done literal stop =>
    move fun _ => stop
    return literal.toFloat
  | .refused violation stop =>
    move fun _ => stop
    fail violation

/-- Reads the operator that starts with a character. -/
def operator (c : Char) : Scanner σ Operator := do
  match Operator.read? c (← next) with
  | some (op, width) =>
    move (Cursor.advanceBy width)
    return op
  | none => fail (.notOperator c)

/-! ## Chains -/

/-- The end of the text ends a chain only when it is the whole text. -/
def endOfText (scope : Scope) (result : Float) : Scanner σ (Float × Ending) :=
  if scope = .whole then pure (result, .text) else fail .missingClose

/-- The rest of a chain behind its first operand, in at most so many rounds; `one` reads an
operand, and `result` is the value so far. -/
def chainRest (one : Scanner σ Float) (scope : Scope) :
    Nat → Float → Scanner σ (Float × Ending)
  | 0, result => endOfText scope result
  | rounds + 1, result => do
    skipBlanks
    match ← current with
    | none => endOfText scope result
    | some c =>
      if c = ')' then
        closeParen
        return (result, .close)
      else if c = ',' ∧ scope = .argument then
        advance
        return (result, .comma)
      else
        let op ← operator c
        let right ← one
        chainRest one scope rounds (op.apply result right)

/-- **Reads a chain** up to where its scope lets it end, and applies its operators from left to
right; `one` reads an operand. -/
def chain (one : Scanner σ Float) (scope : Scope) : Scanner σ (Float × Ending) := do
  let first ← one
  chainRest one scope (← cursor).rest.length first

/-! ## Calls -/

/-- Reads an argument. The flag tells that it is the last one. -/
def argument (one : Scanner σ Float) : Scanner σ (Float × Bool) := do
  let (x, ending) ← chain one .argument
  return (x, ending == .close)

/-- Reads the arguments of a call of a function. Their number is checked as soon as it is known to
be wrong. -/
def arguments (f : Builtin) (one : Scanner σ Float) : Scanner σ Arguments := do
  let (x, last) ← argument one
  match f.arity, last with
  | .one, true => return .one x
  | .one, false => throw (.argumentCount f)
  | .two, true => throw (.argumentCount f)
  | .oneOrTwo, true => return .one x
  | _, false =>
    let (y, last) ← argument one
    if last then return .two x y else throw (.argumentCount f)

/-- Goes one level deeper, if there is one; `inner` reads an operand at that level. -/
def nested (env : Env ω σ) (inner : Option (Scanner σ Float))
    (body : Scanner σ Float → Scanner σ α) : Scanner σ α :=
  match inner with
  | some one => body one
  | none => throw (.tooDeep env.maxDepth)

/-- Reads a call from its name on. -/
def call (env : Env ω σ) (inner : Option (Scanner σ Float)) : Scanner σ Float := do
  let name := String.ofList (Text.lower (← takeRun Char.isAlphanum))
  skipBlanks
  if ← accept '(' then
    openParen
    match Builtin.named? name with
    | none => throw (.unknownFunction name)
    | some f =>
      let args ← nested env inner (arguments f)
      match ← onHost (f.call env.random args) with
      | some result => return result
      | none => throw (.argumentCount f)
  else fail (.missingOpen name)

/-! ## Operands -/

/-- Reads an operand; `inner` reads one that is nested a level deeper, and is none when there is no
such level. An operand that is missing before a closing parenthesis is zero. -/
def operandWith (env : Env ω σ) (inner : Option (Scanner σ Float)) : Scanner σ Float := do
  skipBlanks
  match ← current with
  | none => fail .missingOperand
  | some c =>
    if c.isDigit then number
    else if c.isAlpha then call env inner
    else if c = '$' then
      advance
      reference env
    else if c = '(' then
      advance
      openParen
      let (x, _) ← nested env inner fun one => chain one .group
      return x
    else if c = '+' then
      advance
      nested env inner id
    else if c = '-' then
      advance
      let x ← nested env inner id
      return -x
    else if c = ')' then return 0.0
    else fail (.unexpected c)

/-- **Reads an operand** that nests at most so many levels. -/
def operand (env : Env ω σ) : Nat → Scanner σ Float
  | 0 => operandWith env none
  | levels + 1 => operandWith env (some (operand env levels))

/-- Reads a whole text. -/
def formula (env : Env ω σ) : Scanner σ Float := do
  let (x, _) ← chain (operand env env.maxDepth) .whole
  return x

end Scanner

/-- **Evaluates a text** with an evaluator in any state: it is recycled before and after. Gives the
value or the error, the evaluator, and the state of the host. -/
def Evaluator.eval {ω σ : Type} (e : Evaluator) (env : Env ω σ) (text : String) (host : σ) :
    Except EvalError Float × Evaluator × σ :=
  match Scanner.formula env ⟨e.recycle.load text, host⟩ with
  | .ok x s => (.ok x, s.toEvaluator.recycle, s.host)
  | .error error s => (.error error, s.toEvaluator.recycle, s.host)

end Formula
