import Formula.Cursor
import Formula.Text.WordChar

set_option relaxedAutoImplicit false
set_option autoImplicit false

/-!
# Member paths

A path is one or more names with points between them. It is scanned as a whole before anything is
looked up, so its extent depends on the text alone; a point without a name behind it makes it
malformed, but the names before are still those of the path.

## Main definitions

* `Formula.Path` — the names of a path and where it stops.
* `Formula.Path.scan` — reads a path at a cursor.

## Main results

* `Formula.Path.length_scan` — scanning keeps the length of the text.
-/

namespace Formula

/-- **A path** as it was scanned. -/
structure Path where
  /-- The names, each of at least one character. -/
  names : List String
  /-- Whether a name follows every point. -/
  wellFormed : Bool
  /-- Where scanning stopped. -/
  stop : Cursor
deriving Repr, DecidableEq

namespace Path

/-- Reads the rest of a path from a position on, the characters of the current name being given
with the last first. -/
def scanFrom (seen : List Char) (position : Nat) : List Char → Path
  | [] => close seen ⟨position, []⟩
  | c :: cs =>
    if Text.isWordChar c then scanFrom (c :: seen) (position + 1) cs
    else if c = '.' ∧ seen ≠ [] then
      let path := scanFrom [] (position + 1) cs
      { path with names := String.ofList seen.reverse :: path.names }
    else close seen ⟨position, c :: cs⟩
where
  /-- The end of a path behind its last name, which may be missing. -/
  close (seen : List Char) (stop : Cursor) : Path :=
    if seen.isEmpty then ⟨[], false, stop⟩ else ⟨[String.ofList seen.reverse], true, stop⟩

/-- **Reads a path** at a cursor that stands on its first name. -/
def scan (cursor : Cursor) : Path :=
  scanFrom [] cursor.position cursor.rest

/-- Scanning keeps the length of the text. -/
theorem length_scanFrom (seen : List Char) (position : Nat) (cs : List Char) :
    (scanFrom seen position cs).stop.length = position + cs.length := by
  induction cs generalizing seen position with
  | nil => grind [scanFrom, scanFrom.close, Cursor.length]
  | cons c cs ih => grind [scanFrom, scanFrom.close, Cursor.length]

/-- Scanning keeps the length of the text. -/
@[simp] theorem length_scan (cursor : Cursor) : (scan cursor).stop.length = cursor.length :=
  length_scanFrom [] cursor.position cursor.rest

end Path

end Formula
