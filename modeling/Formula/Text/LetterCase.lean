set_option relaxedAutoImplicit false
set_option autoImplicit false

/-!
# Letter case

Names are compared without regard to the case of ASCII letters. The name of a constant is brought
to lower case by the rule of all scripts first; since it is then only compared with ASCII names,
of the letters outside ASCII only those matter whose lower case lies in ASCII, and there is one:
the Kelvin sign.

## Main definitions

* `Formula.Text.lower` — ASCII letters in lower case.
* `Formula.Text.sameLetters` — equality up to the case of ASCII letters.
* `Formula.Text.lowerName` — the lower case of a constant's name.
-/

namespace Formula.Text

/-- ASCII letters in lower case, all other characters as they are. -/
def lower (cs : List Char) : List Char :=
  cs.map Char.toLower

/-- **Equality up to case**: two texts that differ at most in the case of ASCII letters. -/
def sameLetters (a b : String) : Bool :=
  lower a.toList == lower b.toList

/-- The lower case of a character of a constant's name: the Kelvin sign is the one letter outside
ASCII that becomes an ASCII letter. -/
def lowerNameChar (c : Char) : Char :=
  if c = '\u212a' then 'k' else c.toLower

/-- **The lower case of a constant's name**, exact as far as ASCII names are concerned. -/
def lowerName (cs : List Char) : List Char :=
  cs.map lowerNameChar

/-- Equality up to case is reflexive. -/
@[simp] theorem sameLetters_self (a : String) : sameLetters a a = true := by
  simp [sameLetters]

end Formula.Text
