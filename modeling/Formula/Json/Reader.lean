import Formula.Json.Numeral

set_option relaxedAutoImplicit false
set_option autoImplicit false

/-!
# Reading JSON texts

A document is read from left to right in one pass. Arrays and objects may be nested up to a limit;
the levels that are left are the measure of the recursion, so the limit is also why reading ends.
The loops over strings, items and members take at most as many rounds as there are characters
left, and each round reads one.

## Main definitions

* `Formula.Json.Reader.string` — reads a string behind its quote.
* `Formula.Json.Reader.member` — reads the key of the next member of an object.
* `Formula.Json.Reader.value` — reads a document.
* `Formula.Json.read` — the document that a whole text writes.
-/

namespace Formula.Json

/-- The levels of arrays and objects that a text may nest. -/
def nestingLimit : Nat := 127

/-- The value of a hexadecimal digit. -/
def hexDigit? (c : Char) : Option Nat :=
  if '0' ≤ c ∧ c ≤ '9' then some (c.toNat - '0'.toNat)
  else if 'a' ≤ c ∧ c ≤ 'f' then some (c.toNat - 'a'.toNat + 10)
  else if 'A' ≤ c ∧ c ≤ 'F' then some (c.toNat - 'A'.toNat + 10)
  else none

/-- The number that hexadecimal digits write. -/
def natOfHex? (cs : List Char) : Option Nat :=
  cs.foldl (fun n c => do return 16 * (← n) + (← hexDigit? c)) (some 0)

namespace Reader

/-! ## Strings -/

/-- Reads the four digits of a numbered escape. They are taken as four bytes at once. -/
def fourHex : Reader Nat := fun input =>
  let digits := input.rest.take 4
  let bytes := digits.foldl (fun n c => n + c.utf8Size) 0
  if bytes < 4 then .error ⟨.endInString, input.place.afterBytes bytes input.rest⟩
  else
    match natOfHex? digits with
    | some n => .ok (n, ⟨input.place.afterBytes 4 input.rest, input.rest.drop 4⟩)
    | none => .error ⟨.invalidEscape, input.place.afterBytes 4 input.rest⟩

/-- Reads one given character inside the second half of a surrogate pair. -/
def expectInPair (c : Char) : Reader Unit := do
  match ← peek with
  | none => fail .endInString
  | some d => if d = c then advance else fail .endOfSurrogate

/-- Reads a numbered escape behind its `u`: one unit of UTF-16, or two that are a surrogate
pair. -/
def numberedEscape : Reader Char := do
  let unit ← fourHex
  if 0xDC00 ≤ unit ∧ unit ≤ 0xDFFF then failHere .loneSurrogate
  else if 0xD800 ≤ unit ∧ unit ≤ 0xDBFF then
    expectInPair '\\'
    expectInPair 'u'
    let second ← fourHex
    if 0xDC00 ≤ second ∧ second ≤ 0xDFFF then
      pure (Char.ofNat ((unit - 0xD800) * 0x400 + (second - 0xDC00) + 0x10000))
    else failHere .loneSurrogate
  else pure (Char.ofNat unit)

/-- Reads an escape behind its reverse solidus. -/
def escape : Reader Char := do
  match ← peek with
  | none => fail .endInString
  | some 'u' =>
    advance
    numberedEscape
  | some c =>
    match c with
    | '"' | '\\' | '/' =>
      advance
      pure c
    | 'b' =>
      advance
      pure '\x08'
    | 'f' =>
      advance
      pure '\x0c'
    | 'n' =>
      advance
      pure '\n'
    | 'r' =>
      advance
      pure '\r'
    | 't' =>
      advance
      pure '\t'
    | _ => fail .invalidEscape

/-- The rest of a string, in at most so many rounds; the characters read so far are given the last
first. -/
def stringRest : Nat → List Char → Reader String
  | 0, _ => fail .endInString
  | rounds + 1, seen => do
    match ← peek with
    | none => fail .endInString
    | some '"' =>
      advance
      pure (String.ofList seen.reverse)
    | some '\\' =>
      advance
      stringRest rounds ((← escape) :: seen)
    | some c =>
      if c.toNat < 0x20 then fail .controlInString
      else
        advance
        stringRest rounds (c :: seen)

/-- **Reads a string** behind its opening quote. -/
def string : Reader String := do
  stringRest (← remaining) []

/-! ## Words -/

/-- Reads the given characters. -/
def word : List Char → Reader Unit
  | [] => pure ()
  | c :: cs => do
    match ← peek with
    | none => fail .endInValue
    | some d =>
      if d = c then
        advance
        word cs
      else fail .expectedWord

/-! ## Arrays and objects -/

/-- Moves to the next item of an array, and says whether there is one. The closing bracket is left
unread. -/
def item (first : Bool) : Reader Bool := do
  match ← peekToken with
  | none => fail .endInArray
  | some c =>
    if c = ']' then pure false
    else if first then pure true
    else if c = ',' then
      advance
      match ← peekToken with
      | none => fail .endInValue
      | some d => if d = ']' then fail .trailingComma else pure true
    else fail .expectedArrayCommaOrEnd

/-- **Reads the key of the next member** of an object, if there is one. The closing brace is left
unread. -/
def member (first : Bool) : Reader (Option String) := do
  match ← peekToken with
  | none => fail .endInObject
  | some c =>
    if c = '}' then pure none
    else if first then
      if c = '"' then
        advance
        some <$> string
      else fail .keyNotString
    else if c = ',' then
      advance
      match ← peekToken with
      | none => fail .endInValue
      | some d =>
        if d = '"' then
          advance
          some <$> string
        else if d = '}' then fail .trailingComma
        else fail .keyNotString
    else fail .expectedObjectCommaOrEnd

/-- Reads the colon between a key and its value. -/
def colon : Reader Unit := do
  match ← peekToken with
  | none => fail .endInObject
  | some c => if c = ':' then advance else fail .expectedColon

/-- Reads the items of an array up to its end, in at most so many rounds; `one` reads an item. -/
def items (one : Reader Json) : Nat → List Json → Reader (List Json)
  | 0, _ => fail .endInArray
  | rounds + 1, seen => do
    if ← item seen.isEmpty then items one rounds ((← one) :: seen)
    else
      advance
      pure seen.reverse

/-- Reads the members of an object up to its end, in at most so many rounds; `one` reads a
value. -/
def members (one : Reader Json) : Nat → List (String × Json) → Reader (List (String × Json))
  | 0, _ => fail .endInObject
  | rounds + 1, seen => do
    match ← member seen.isEmpty with
    | some key =>
      colon
      members one rounds ((key, ← one) :: seen)
    | none =>
      advance
      pure seen.reverse

/-- Reads a document; `inner` reads one that is nested in it, and is none when the limit is
reached. -/
def valueWith (inner : Option (Reader Json)) : Reader Json := do
  match ← peekToken with
  | none => fail .endInValue
  | some c =>
    match c with
    | 'n' =>
      advance
      word ['u', 'l', 'l']
      pure .null
    | 't' =>
      advance
      word ['r', 'u', 'e']
      pure (.bool true)
    | 'f' =>
      advance
      word ['a', 'l', 's', 'e']
      pure (.bool false)
    | '-' =>
      advance
      .number <$> numeral true
    | '"' =>
      advance
      .string <$> string
    | '[' =>
      match inner with
      | none => fail .tooNested
      | some one =>
        advance
        .array <$> items one (← remaining) []
    | '{' =>
      match inner with
      | none => fail .tooNested
      | some one =>
        advance
        ofMembers <$> members one (← remaining) []
    | _ => if c.isDigit then .number <$> numeral false else fail .expectedValue

/-- **Reads a document** that nests at most so many levels. -/
def value : Nat → Reader Json
  | 0 => valueWith none
  | levels + 1 => valueWith (some (value levels))

/-- Reads white space up to the end of the text. -/
def finish : Reader Unit := do
  if (← peekToken).isSome then fail .trailingCharacters

/-- Reads a whole text with a reader. -/
def run {α : Type} (reader : Reader α) (text : String) : Except Fault α :=
  (do
    let x ← reader
    finish
    pure x : Reader α).run' (Input.ofText text)

end Reader

/-- **The document that a whole text writes.** -/
def read (text : String) : Except Fault Json :=
  (Reader.value nestingLimit).run text

end Formula.Json
