import Formula.Builtin

set_option relaxedAutoImplicit false
set_option autoImplicit false

/-!
# Errors of an evaluation

Everything that can stop an evaluation. The first violation wins; there is no partial result.

## Main definitions

* `Formula.Violation` — what is wrong with the text at a position.
* `Formula.EvalError` — why an evaluation stopped.
* `Formula.EvalError.message` — its wording.
-/

namespace Formula

/-- **What is wrong with a text** at the position where scanning stopped. -/
inductive Violation where
  /-- The text ends where an operand is expected. -/
  | missingOperand
  /-- The text ends inside a group or a call. -/
  | missingClose
  /-- A closing parenthesis without an opening one. -/
  | unmatchedClose
  /-- No operand starts with this character. -/
  | unexpected (c : Char)
  /-- No operator starts with this character. -/
  | notOperator (c : Char)
  /-- No reference starts with this character behind its mark. -/
  | notReference (c : Char)
  /-- A literal with two points. -/
  | secondPoint
  /-- A literal whose integer part does not fit in 64 bits. -/
  | numberTooLarge
  /-- The name of a function without an opening parenthesis. -/
  | missingOpen (name : String)
  /-- The text ends inside a type name. -/
  | openTypeName
  /-- A type name without a path behind it. -/
  | missingPath (typeName : String)
  /-- A point of a path without a name behind it. -/
  | missingMember
deriving Repr, DecidableEq

/-- The wording of a violation. -/
def Violation.message : Violation → String
  | missingOperand => "expected a value, found end of input"
  | missingClose => "missing ')'"
  | unmatchedClose => "unmatched ')'"
  | unexpected c => "unexpected '" ++ c.toString ++ "'"
  | notOperator c => "unexpected '" ++ c.toString ++ "', expected an operator"
  | notReference c => "unexpected '" ++ c.toString ++ "' after '$'"
  | secondPoint => "second decimal point in number"
  | numberTooLarge => "number too large"
  | missingOpen name => "expected '(' after function name '" ++ name ++ "'"
  | openTypeName => "unterminated type name, missing ')'"
  | missingPath typeName => "expected '.' after '$(" ++ typeName ++ ")'"
  | missingMember => "expected a member name after '.'"

/-- **Why an evaluation stopped.** -/
inductive EvalError where
  /-- The text is malformed; positions count characters from zero. -/
  | malformed (position : Nat) (violation : Violation)
  /-- A function was given more or fewer arguments than it takes. -/
  | argumentCount (function : Builtin)
  /-- There is no function with this name. -/
  | unknownFunction (name : String)
  /-- Groups, calls and signs are nested deeper than the limit. -/
  | tooDeep (limit : Nat)
deriving Repr, DecidableEq

/-- The wording of an error. -/
def EvalError.message : EvalError → String
  | malformed position violation =>
    "parse error at " ++ toString position ++ ": " ++ violation.message
  | argumentCount f =>
    "parameter count mismatch: " ++ f.name ++ " expects " ++ f.arity.describe
  | unknownFunction name => "unknown function: " ++ name
  | tooDeep limit => "expression nesting exceeds the limit of " ++ toString limit

end Formula
