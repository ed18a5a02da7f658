import Formula.Json.Fault

set_option relaxedAutoImplicit false
set_option autoImplicit false

/-!
# Reading a text from left to right

The unread rest of a text together with the place where it starts, and the few moves that all
readers of JSON texts are made of. A fault is reported just past the first byte of the character
that is not as expected, or at the end when there is none left.

## Main definitions

* `Formula.Json.Input` — the unread rest of a text and its place.
* `Formula.Json.Reader` — a computation that reads from the input or stops with a fault.
-/

namespace Formula.Json

/-- The place behind a character. -/
def Place.after (c : Char) (place : Place) : Place :=
  if c = '\n' then ⟨place.line + 1, 0⟩ else ⟨place.line, place.column + c.utf8Size⟩

/-- The place so many bytes on, which need not be the start of a character. -/
def Place.afterBytes : Nat → List Char → Place → Place
  | 0, _, place => place
  | _, [], place => place
  | bytes + 1, c :: cs, place =>
    if bytes + 1 < c.utf8Size then ⟨place.line, place.column + (bytes + 1)⟩
    else afterBytes (bytes + 1 - c.utf8Size) cs (place.after c)
termination_by _ cs => cs.length

/-- **The unread rest of a text** and the place where it starts. -/
structure Input where
  /-- Where the rest starts. -/
  place : Place
  /-- The characters not yet read. -/
  rest : List Char
deriving Repr, DecidableEq

namespace Input

/-- A whole text. -/
def ofText (text : String) : Input :=
  ⟨⟨1, 0⟩, text.toList⟩

/-- The input behind the next character. -/
def tail (input : Input) : Input :=
  match input.rest with
  | [] => input
  | c :: cs => ⟨input.place.after c, cs⟩

/-- The input behind the longest run of characters with a property. -/
def skipWhile (p : Char → Bool) (input : Input) : Input :=
  go input.place input.rest
where
  /-- The walk over the run. -/
  go (place : Place) : List Char → Input
    | [] => ⟨place, []⟩
    | c :: cs => if p c then go (place.after c) cs else ⟨place, c :: cs⟩

/-- The place just past the first byte of the next character, or the end. -/
def ahead (input : Input) : Place :=
  input.place.afterBytes 1 input.rest

end Input

/-- **A reader**: a computation that reads from the input or stops with a fault. -/
abbrev Reader := StateT Input (Except Fault)

namespace Reader

variable {α : Type}

/-- Stops just past the first byte of the next character. -/
def fail (cause : Cause) : Reader α := fun input =>
  .error ⟨cause, input.ahead⟩

/-- Stops before the next character. -/
def failHere (cause : Cause) : Reader α := fun input =>
  .error ⟨cause, input.place⟩

/-- The next character, without reading it. -/
def peek : Reader (Option Char) := do
  return (← get).rest.head?

/-- Reads the next character. -/
def advance : Reader Unit :=
  modify Input.tail

/-- The white space of JSON. -/
def isSpace (c : Char) : Bool :=
  c = ' ' || c = '\n' || c = '\t' || c = '\r'

/-- Reads white space. -/
def skipSpaces : Reader Unit :=
  modify (Input.skipWhile isSpace)

/-- The next character after white space, without reading it. -/
def peekToken : Reader (Option Char) := do
  skipSpaces
  peek

/-- How many characters are left. -/
def remaining : Reader Nat := do
  return (← get).rest.length

end Reader

end Formula.Json
