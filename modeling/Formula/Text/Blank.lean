set_option relaxedAutoImplicit false
set_option autoImplicit false

/-!
# Blanks

The characters that only separate: those with the Unicode property White_Space.

## Main definitions

* `Formula.Text.isBlank` — the 25 blank characters.
* `Formula.Text.trimBlanks` — a text without the blanks at its two ends.
-/

namespace Formula.Text

/-- **A blank**: a character with the property White_Space. -/
def isBlank (c : Char) : Bool :=
  let n := c.toNat
  (0x09 ≤ n && n ≤ 0x0D) || n == 0x20 || n == 0x85 || n == 0xA0 || n == 0x1680 ||
    (0x2000 ≤ n && n ≤ 0x200A) || n == 0x2028 || n == 0x2029 || n == 0x202F || n == 0x205F ||
    n == 0x3000

/-- A text without the blanks at its start. -/
def dropBlanks (cs : List Char) : List Char :=
  cs.dropWhile isBlank

/-- **A trimmed text**: without the blanks at its start and at its end. -/
def trimBlanks (cs : List Char) : List Char :=
  (dropBlanks (dropBlanks cs).reverse).reverse

end Formula.Text
