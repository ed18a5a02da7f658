set_option relaxedAutoImplicit false
set_option autoImplicit false

/-!
# Faults of JSON texts

What can be wrong with a JSON text, and where. A place counts lines from one and, within a line,
bytes of the UTF-8 form.

## Main definitions

* `Formula.Json.Place` — a line and a column.
* `Formula.Json.Cause` — what is wrong.
* `Formula.Json.Fault` — what is wrong, and where.
-/

namespace Formula.Json

/-- **A place in a text.** -/
structure Place where
  /-- The line, from one. -/
  line : Nat
  /-- The bytes of the line that lie before the place. -/
  column : Nat
deriving Repr, DecidableEq

/-- **What is wrong with a text.** -/
inductive Cause where
  | endInArray
  | endInObject
  | endInString
  | endInValue
  | expectedColon
  | expectedArrayCommaOrEnd
  | expectedObjectCommaOrEnd
  | expectedWord
  | expectedValue
  | invalidEscape
  | invalidNumber
  | numberOutOfRange
  | controlInString
  | keyNotString
  | loneSurrogate
  | trailingComma
  | trailingCharacters
  | endOfSurrogate
  | tooNested
deriving Repr, DecidableEq

/-- The wording of a cause. -/
def Cause.message : Cause → String
  | endInArray => "EOF while parsing a list"
  | endInObject => "EOF while parsing an object"
  | endInString => "EOF while parsing a string"
  | endInValue => "EOF while parsing a value"
  | expectedColon => "expected `:`"
  | expectedArrayCommaOrEnd => "expected `,` or `]`"
  | expectedObjectCommaOrEnd => "expected `,` or `\x7d`"
  | expectedWord => "expected ident"
  | expectedValue => "expected value"
  | invalidEscape => "invalid escape"
  | invalidNumber => "invalid number"
  | numberOutOfRange => "number out of range"
  | controlInString => "control character (\\u0000-\\u001F) found while parsing a string"
  | keyNotString => "key must be a string"
  | loneSurrogate => "lone leading surrogate in hex escape"
  | trailingComma => "trailing comma"
  | trailingCharacters => "trailing characters"
  | endOfSurrogate => "unexpected end of hex escape"
  | tooNested => "recursion limit exceeded"

/-- **What is wrong, and where.** -/
structure Fault where
  /-- What is wrong. -/
  cause : Cause
  /-- Where reading stopped. -/
  place : Place
deriving Repr, DecidableEq

/-- A place behind a message. -/
def Place.describe (place : Place) : String :=
  " at line " ++ toString place.line ++ " column " ++ toString place.column

/-- The wording of a fault. -/
def Fault.message (fault : Fault) : String :=
  fault.cause.message ++ fault.place.describe

end Formula.Json
