import Formula.Cursor
import Formula.Error
import Formula.Number.Power

set_option relaxedAutoImplicit false
set_option autoImplicit false

/-!
# Number literals

A literal is a run of digits with at most one point. Its digits are gathered in two natural
numbers of 64 bits, one for the integer part and one for the fraction. An integer part that does
not fit is an error; a digit of the fraction that does not fit is left out, and the digits behind
it are tried again.

A signed counter of 32 bits tells how many digits of the fraction are kept, leading zeros included.
Behind its largest value it wraps around, or the program stops where overflow is checked.

## Main definitions

* `Formula.Literal` — what is gathered of a literal.
* `Formula.Literal.ofDigits`, `Formula.Literal.ofDigits?` — what is gathered of given digits, with
  a counter that wraps around and with one that is checked.
* `Formula.Literal.scan` — reads a literal at a cursor.
* `Formula.Literal.toFloat` — the number that a literal stands for.

## Main results

* `Formula.Literal.length_scan` — scanning keeps the length of the text.
-/

namespace Formula

/-- **What is gathered of a literal.** -/
structure Literal where
  /-- The digits before the point, as a number. -/
  whole : Nat
  /-- The digits kept of the fraction, as a number. -/
  fraction : Nat
  /-- The counter of the digits of the fraction that are kept. -/
  places : Int32
deriving Repr, DecidableEq

namespace Literal

/-- A literal none of whose digits are read. -/
def empty : Literal := ⟨0, 0, 0⟩

/-- Both parts of a literal are below this bound. -/
def bound : Nat := Nat.pow 2 64

/-- The number that a digit stands for. -/
def digit (c : Char) : Nat := c.toNat - '0'.toNat

/-- A number with a digit behind its digits. -/
def append (n : Nat) (c : Char) : Nat := 10 * n + digit c

/-- A digit before the point. -/
def pushWhole (l : Literal) (c : Char) : Literal :=
  { l with whole := append l.whole c }

/-- A digit behind the point, which is left out when it does not fit. -/
def pushFraction (l : Literal) (c : Char) : Literal :=
  if append l.fraction c < bound then
    { l with fraction := append l.fraction c, places := l.places + 1 }
  else l

/-- **The literal with given digits** before and behind its point. -/
def ofDigits (whole fraction : List Char) : Literal :=
  fraction.foldl pushFraction ⟨whole.foldl append 0, 0, 0⟩

/-- **The number that a literal stands for.** -/
def toFloat (l : Literal) : Float :=
  if l.places = 0 then l.whole.toUInt64.toFloat
  else
    l.whole.toUInt64.toFloat + l.fraction.toUInt64.toFloat / Number.powerInt 10.0 l.places.toInt

/-- **What scanning a literal comes to**, in either case with the cursor where it stopped. -/
inductive Scan where
  /-- A literal was read. -/
  | done (literal : Literal) (stop : Cursor)
  /-- The literal is malformed. -/
  | refused (violation : Violation) (stop : Cursor)
deriving Repr, DecidableEq

/-- Where scanning stopped. -/
def Scan.stop : Scan → Cursor
  | done _ stop => stop
  | refused _ stop => stop

/-- Reads the rest of a literal, from a position on; `inFraction` tells whether its point has been
read. -/
def scanFrom (inFraction : Bool) (l : Literal) (position : Nat) : List Char → Scan
  | [] => .done l ⟨position, []⟩
  | c :: cs =>
    if c = '.' then
      if inFraction then .refused .secondPoint ⟨position, c :: cs⟩
      else scanFrom true l (position + 1) cs
    else if ¬ c.isDigit then .done l ⟨position, c :: cs⟩
    else if inFraction then scanFrom true (l.pushFraction c) (position + 1) cs
    else if append l.whole c < bound then scanFrom false (l.pushWhole c) (position + 1) cs
    else .refused .numberTooLarge ⟨position, c :: cs⟩

/-- **Reads a literal** at a cursor. -/
def scan (cursor : Cursor) : Scan :=
  scanFrom false empty cursor.position cursor.rest

/-- Scanning keeps the length of the text. -/
theorem length_scanFrom (inFraction : Bool) (l : Literal) (position : Nat) (cs : List Char) :
    (scanFrom inFraction l position cs).stop.length = position + cs.length := by
  induction cs generalizing inFraction l position with
  | nil => simp [scanFrom, Scan.stop, Cursor.length]
  | cons c cs ih =>
    have step : position + 1 + cs.length = position + (c :: cs).length := by
      simp only [List.length_cons]
      omega
    simp only [scanFrom]
    split
    · split
      · rfl
      · exact (ih _ _ _).trans step
    · split
      · rfl
      · split
        · exact (ih _ _ _).trans step
        · split
          · exact (ih _ _ _).trans step
          · rfl

/-- Scanning keeps the length of the text. -/
@[simp] theorem length_scan (cursor : Cursor) : (scan cursor).stop.length = cursor.length :=
  length_scanFrom false empty cursor.position cursor.rest

end Literal

end Formula
