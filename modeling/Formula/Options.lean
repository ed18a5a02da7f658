import Formula.Json.Reader
import Formula.Json.Writer
import Formula.Text.Quoted

set_option relaxedAutoImplicit false
set_option autoImplicit false

/-!
# Options

What can be set for an engine, and how it is read from a JSON text. The text is an object with
members of known names, each at most once, or an array that lists the values in order; what is left
out has its default.

A member that is not known or is repeated is reported behind the blanks, and the closing brace if
there is one, that follow its key.

## Main definitions

* `Formula.Options` — what can be set.
* `Formula.Options.Fault` — why a text sets nothing.
* `Formula.Options.read` — the options that a text sets.
-/

namespace Formula

/-- **What can be set for an engine.** -/
structure Options where
  /-- How many levels of groups, calls and signs may be nested. -/
  maxDepth : Nat
  /-- How many evaluators are kept for use again. -/
  poolCapacity : Nat
deriving Repr, DecidableEq

namespace Options

/-- The options that hold when nothing is set. -/
def default : Options := ⟨128, 8⟩

/-- **The members** of a text that sets options. -/
inductive Field where
  | maxDepth
  | poolCapacity
deriving Repr, DecidableEq

/-- The key of a member. -/
def Field.key : Field → String
  | maxDepth => "max_depth"
  | poolCapacity => "pool_capacity"

/-- The member with a key. -/
def Field.ofKey? (key : String) : Option Field :=
  [maxDepth, poolCapacity].find? fun f => f.key == key

/-- **What was found** in place of something else. -/
inductive Found where
  | null
  | bool (value : Bool)
  | number (value : Json.Number)
  | string (value : String)
  | array
  | object

/-- The wording of what was found. -/
def Found.describe : Found → String
  | null => "null"
  | bool b => "boolean `" ++ (if b then "true" else "false") ++ "`"
  | number (.whole n) => "integer `" ++ toString n ++ "`"
  | number (.real x) => "floating point `" ++ (Json.Number.real x).render ++ "`"
  | string s => "string " ++ Text.quoted s
  | array => "sequence"
  | object => "map"

/-- **Why a text sets nothing.** -/
inductive Cause where
  /-- The text is no JSON. -/
  | json (cause : Json.Cause)
  /-- There is no such member. -/
  | unknownField (key : String)
  /-- A member is there twice. -/
  | duplicateField (field : Field)
  /-- A value is not a natural number. -/
  | notNatural (found : Found)
  /-- A value is a negative integer. -/
  | negative (value : Int)
  /-- The text is neither an object nor an array. -/
  | notOptions (found : Found)

/-- The wording of a cause. -/
def Cause.message : Cause → String
  | json cause => cause.message
  | unknownField key =>
    "unknown field `" ++ key ++ "`, expected `max_depth` or `pool_capacity`"
  | duplicateField field => "duplicate field `" ++ field.key ++ "`"
  | notNatural found => "invalid type: " ++ found.describe ++ ", expected usize"
  | negative n => "invalid value: integer `" ++ toString n ++ "`, expected usize"
  | notOptions found => "invalid type: " ++ found.describe ++ ", expected struct Options"

/-- **Why, and where.** -/
structure Fault where
  /-- What is wrong. -/
  cause : Cause
  /-- Where reading stopped. -/
  place : Json.Place

/-- The wording of a fault. -/
def Fault.message (fault : Fault) : String :=
  "config error: " ++ fault.cause.message ++ fault.place.describe

/-! ## Reading -/

/-- Readers that stop with a fault of options. -/
abbrev Reader := StateT Json.Input (Except Fault)

namespace Reader

variable {α : Type}

/-- Reads JSON. -/
def ofJson (reader : Json.Reader α) : Reader α := fun input =>
  match reader input with
  | .ok r => .ok r
  | .error fault => .error ⟨.json fault.cause, fault.place⟩

/-- Stops before the next character. -/
def failHere (cause : Cause) : Reader α := fun input =>
  .error ⟨cause, input.place⟩

/-- Stops behind blanks and a closing brace. -/
def failBehindKey (cause : Cause) : Reader α := do
  ofJson do
    if (← Json.Reader.peekToken) = some '}' then Json.Reader.advance
  failHere cause

/-- Reads a value that is none of those expected, to tell what it is. Of an array or an object
nothing is read. -/
def found (c : Char) : Json.Reader Found := do
  match c with
  | '[' => return .array
  | '{' => return .object
  | '"' =>
    Json.Reader.advance
    return .string (← Json.Reader.string)
  | '-' =>
    Json.Reader.advance
    return .number (← Json.Reader.numeral true)
  | 'n' =>
    Json.Reader.advance
    Json.Reader.word ['u', 'l', 'l']
    return .null
  | 't' =>
    Json.Reader.advance
    Json.Reader.word ['r', 'u', 'e']
    return .bool true
  | 'f' =>
    Json.Reader.advance
    Json.Reader.word ['a', 'l', 's', 'e']
    return .bool false
  | _ =>
    if c.isDigit then return .number (← Json.Reader.numeral false)
    else Json.Reader.fail .expectedValue

/-- Reads a natural number of 64 bits. -/
def natural : Reader Nat := do
  match ← ofJson Json.Reader.peekToken with
  | none => ofJson (Json.Reader.fail .endInValue)
  | some c =>
    match ← ofJson (found c) with
    | .number (.whole n) => if 0 ≤ n then return n.toNat else failHere (.negative n)
    | other => failHere (.notNatural other)

/-- The values read so far. -/
structure Draft where
  /-- The value of the one member. -/
  maxDepth : Option Nat
  /-- The value of the other. -/
  poolCapacity : Option Nat

namespace Draft

/-- The value of a member. -/
def get (draft : Draft) : Field → Option Nat
  | .maxDepth => draft.maxDepth
  | .poolCapacity => draft.poolCapacity

/-- Sets the value of a member. -/
def set (draft : Draft) (value : Nat) : Field → Draft
  | .maxDepth => { draft with maxDepth := some value }
  | .poolCapacity => { draft with poolCapacity := some value }

/-- The options, with defaults for what is not set. -/
def finish (draft : Draft) : Options :=
  ⟨draft.maxDepth.getD default.maxDepth, draft.poolCapacity.getD default.poolCapacity⟩

end Draft

/-- Reads the members up to the closing brace, in at most so many rounds. -/
def members : Nat → Bool → Draft → Reader Draft
  | 0, _, _ => ofJson (Json.Reader.fail .endInObject)
  | rounds + 1, first, draft => do
    match ← ofJson (Json.Reader.member first) with
    | none =>
      ofJson Json.Reader.advance
      return draft
    | some key =>
      match Field.ofKey? key with
      | none => failBehindKey (.unknownField key)
      | some field =>
        if (draft.get field).isSome then failBehindKey (.duplicateField field)
        else
          ofJson Json.Reader.colon
          members rounds false (draft.set (← natural) field)

/-- Reads the values of fields in turn, as long as there are any. -/
def listed : Bool → List Field → Draft → Reader Draft
  | _, [], draft => return draft
  | first, field :: fields, draft => do
    if ← ofJson (Json.Reader.item first) then
      listed false fields (draft.set (← natural) field)
    else return draft

/-- Reads the end of an array of which nothing more is expected. -/
def closeArray : Json.Reader Unit := do
  match ← Json.Reader.peekToken with
  | none => Json.Reader.fail .endInArray
  | some ']' => Json.Reader.advance
  | some ',' =>
    Json.Reader.advance
    if (← Json.Reader.peekToken) = some ']' then Json.Reader.fail .trailingComma
    else Json.Reader.fail .trailingCharacters
  | some _ => Json.Reader.fail .trailingCharacters

/-- Reads options. -/
def options : Reader Options := do
  match ← ofJson Json.Reader.peekToken with
  | none => ofJson (Json.Reader.fail .endInValue)
  | some '{' =>
    ofJson Json.Reader.advance
    return (← members (← ofJson Json.Reader.remaining) true ⟨none, none⟩).finish
  | some '[' =>
    ofJson Json.Reader.advance
    let draft ← listed true [.maxDepth, .poolCapacity] ⟨none, none⟩
    ofJson closeArray
    return draft.finish
  | some c => failHere (.notOptions (← ofJson (found c)))

end Reader

/-- **The options that a text sets.** -/
def read (text : String) : Except Fault Options :=
  (do
    let options ← Reader.options
    Reader.ofJson Json.Reader.finish
    return options : Reader Options).run' (Json.Input.ofText text)

end Options

end Formula
