set_option relaxedAutoImplicit false
set_option autoImplicit false

/-!
# Cursors

A cursor stands in a text: it knows how many characters lie before it and which lie ahead. It only
moves forward, and what it leaves behind and what is ahead together stay as long as the text.

## Main definitions

* `Formula.Cursor` — a place in a text, with what is ahead.
* `Formula.Cursor.advanceBy`, `Formula.Cursor.skipWhile` — the moves.

## Main results

* `Formula.Cursor.length_skipWhile`, `Formula.Cursor.length_advanceBy` — a move keeps the length of
  the text.
-/

namespace Formula

/-- **A place in a text**: how many characters lie before it, and the characters ahead. -/
structure Cursor where
  /-- How many characters lie before the cursor. -/
  position : Nat
  /-- The characters ahead. -/
  rest : List Char
deriving Repr, DecidableEq

namespace Cursor

/-- The cursor at the start of a text. -/
def start (text : List Char) : Cursor := ⟨0, text⟩

/-- The length of the text in which the cursor stands. -/
def length (c : Cursor) : Nat := c.position + c.rest.length

/-- The character under the cursor. -/
def current (c : Cursor) : Option Char := c.rest.head?

/-- The character behind the one under the cursor. -/
def next (c : Cursor) : Option Char := c.rest.tail.head?

/-- Moves over so many characters, or to the end. -/
def advanceBy (n : Nat) (c : Cursor) : Cursor :=
  ⟨c.position + (c.rest.take n).length, c.rest.drop n⟩

/-- Moves over one character, if there is one. -/
def advance (c : Cursor) : Cursor := c.advanceBy 1

/-- The longest run of characters ahead with a property. -/
def run (p : Char → Bool) (c : Cursor) : List Char := c.rest.takeWhile p

/-- Moves over the longest run of characters with a property. -/
def skipWhile (p : Char → Bool) (c : Cursor) : Cursor :=
  ⟨c.position + (c.run p).length, c.rest.dropWhile p⟩

@[simp] theorem length_start (text : List Char) : (start text).length = text.length := by
  simp [start, length]

/-- Moving forward keeps the length of the text. -/
@[simp] theorem length_advanceBy (n : Nat) (c : Cursor) : (c.advanceBy n).length = c.length := by
  simp only [advanceBy, length, List.length_take, List.length_drop]
  omega

@[simp] theorem length_advance (c : Cursor) : c.advance.length = c.length :=
  length_advanceBy 1 c

/-- Moving over a run keeps the length of the text. -/
@[simp] theorem length_skipWhile (p : Char → Bool) (c : Cursor) :
    (c.skipWhile p).length = c.length := by
  have h := congrArg List.length (List.takeWhile_append_dropWhile (p := p) (l := c.rest))
  simp only [List.length_append] at h
  simp only [skipWhile, run, length]
  omega

end Cursor

end Formula
