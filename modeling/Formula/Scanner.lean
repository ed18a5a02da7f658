import Formula.Cursor
import Formula.Error
import Formula.Text.Blank
import Formula.Tick

set_option relaxedAutoImplicit false
set_option autoImplicit false

/-!
# Scanners

A scanner is a computation that moves a cursor through a text, makes calls on the host, and either
gives a value or stops with an error; in both cases the state it leaves behind is known.

## Main definitions

* `Formula.Evaluator` — the state that outlives an evaluation and is used again.
* `Formula.Env` — what an evaluation is given besides the text.
* `Formula.Running` — the state of a running evaluation.
* `Formula.Scanner` — computations on that state.
-/

namespace Formula

/-- **The state of an evaluator**, which is kept between evaluations and used again. -/
structure Evaluator where
  /-- Where the evaluation stands in the text. -/
  cursor : Cursor
  /-- How many parentheses of groups and calls are open. -/
  depth : Nat
deriving Repr, DecidableEq

namespace Evaluator

/-- A new evaluator. -/
def blank : Evaluator := ⟨Cursor.start [], 0⟩

/-- An evaluator with nothing left of its last text. -/
def recycle (e : Evaluator) : Evaluator :=
  { e with cursor := Cursor.start [], depth := 0 }

/-- An evaluator at the start of a text. -/
def load (e : Evaluator) (text : String) : Evaluator :=
  { e with cursor := Cursor.start text.toList }

/-- Nothing of an evaluator's state survives recycling. -/
@[simp] theorem recycle_eq_blank (e : Evaluator) : e.recycle = blank := rfl

end Evaluator

/-- **What an evaluation is given** besides the text: an object to refer to, a host, a sample of
the clock, and how deep groups, calls and signs may be nested. -/
structure Env (ω σ : Type) where
  /-- The object that references start from. -/
  context : ω
  /-- How objects are read. -/
  model : ObjectModel ω σ
  /-- Where random numbers come from. -/
  random : RandomSource σ
  /-- The clock's sample. -/
  tick : Tick
  /-- How many levels may be nested. -/
  maxDepth : Nat

/-- **The state of a running evaluation**: the evaluator's and the host's. -/
structure Running (σ : Type) extends Evaluator where
  /-- The host's state. -/
  host : σ

/-- **A scanner**: it gives a value or stops with an error, and leaves a state behind in either
case. -/
abbrev Scanner (σ : Type) := EStateM EvalError (Running σ)

namespace Scanner

variable {σ α : Type}

/-- The cursor. -/
def cursor : Scanner σ Cursor := do
  return (← get).cursor

/-- Moves the cursor. -/
def move (f : Cursor → Cursor) : Scanner σ Unit :=
  modify fun s => { s with cursor := f s.cursor }

/-- The character under the cursor. -/
def current : Scanner σ (Option Char) := do
  return (← cursor).current

/-- The character behind the one under the cursor. -/
def next : Scanner σ (Option Char) := do
  return (← cursor).next

/-- Moves over the character under the cursor. -/
def advance : Scanner σ Unit :=
  move Cursor.advance

/-- Moves over blanks. -/
def skipBlanks : Scanner σ Unit :=
  move (Cursor.skipWhile Text.isBlank)

/-- Reads the longest run of characters with a property. -/
def takeRun (p : Char → Bool) : Scanner σ (List Char) := do
  let run := (← cursor).run p
  move (Cursor.skipWhile p)
  return run

/-- Moves over a given character, if it is the one under the cursor. -/
def accept (c : Char) : Scanner σ Bool := do
  if (← current) = some c then
    advance
    return true
  else
    return false

/-- Stops at the cursor. -/
def fail (violation : Violation) : Scanner σ α := do
  throw (.malformed (← cursor).position violation)

/-- Makes a call on the host. -/
def onHost (call : StateM σ α) : Scanner σ α := fun s =>
  let (a, host) := call s.host
  .ok a { s with host := host }

/-- Counts an opening parenthesis. -/
def openParen : Scanner σ Unit :=
  modify fun s => { s with depth := s.depth + 1 }

/-- Reads a closing parenthesis, which must have an opening one. -/
def closeParen : Scanner σ Unit := do
  if (← get).depth = 0 then fail .unmatchedClose
  else
    modify fun s => { s with depth := s.depth - 1 }
    advance

end Scanner

end Formula
