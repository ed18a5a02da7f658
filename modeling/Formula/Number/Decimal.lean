set_option relaxedAutoImplicit false
set_option autoImplicit false

/-!
# Reading decimal text

A decimal text is an optional sign, then digits with at most one point and at least one digit, and
an optional power of ten; or, in any letter case, a word for an infinity or for what is not a
number. It stands for the double nearest to its value, a tie going to the even one.

## Main definitions

* `Formula.Number.Decimal` — an unsigned decimal value.
* `Formula.Number.Decimal.read?` — the digits and the power of ten of a text.
* `Formula.Number.read?` — the double that a text stands for.
-/

namespace Formula.Number

/-- **An unsigned decimal**: `digits * 10 ^ exponent`. -/
structure Decimal where
  /-- All digits, without the point. -/
  digits : Nat
  /-- The power of ten that the last digit counts. -/
  exponent : Int
deriving Repr, DecidableEq

/-- The natural number that decimal digits write. -/
def natOfDigits (cs : List Char) : Nat :=
  cs.foldl (fun n c => 10 * n + (c.toNat - '0'.toNat)) 0

namespace Decimal

/-- **The nearest double.** A value beyond `10 ^ 400` is infinite and one below `10 ^ -400` is
zero, whatever the digits are; so powers of ten stay small. -/
def toFloat (d : Decimal) : Float :=
  if d.digits = 0 then 0.0
  else if 400 < d.exponent then 1.0 / 0.0
  else if d.exponent < -(400 + (d.digits.log2 : Int)) then 0.0
  else if 0 ≤ d.exponent then Float.ofScientific d.digits false d.exponent.toNat
  else Float.ofScientific d.digits true (-d.exponent).toNat

/-- The power of ten behind the digits: nothing, or a mark, a sign and at least one digit. -/
def readExponent? : List Char → Option Int
  | [] => some 0
  | mark :: cs =>
    if mark ≠ 'e' ∧ mark ≠ 'E' then none
    else
      let (negative, ds) := match cs with
        | '-' :: ds => (true, ds)
        | '+' :: ds => (false, ds)
        | ds => (false, ds)
      if ds.isEmpty ∨ ¬ ds.all Char.isDigit then none
      else if negative then some (-(natOfDigits ds : Int))
      else some (natOfDigits ds)

/-- **The digits and the power of ten** of a whole text, without a sign. -/
def read? (cs : List Char) : Option Decimal :=
  let whole := cs.takeWhile Char.isDigit
  let (fraction, rest) := match cs.dropWhile Char.isDigit with
    | '.' :: rest => (rest.takeWhile Char.isDigit, rest.dropWhile Char.isDigit)
    | rest => ([], rest)
  if whole.isEmpty ∧ fraction.isEmpty then none
  else (readExponent? rest).map fun e =>
    ⟨natOfDigits (whole ++ fraction), e - fraction.length⟩

end Decimal

/-- The words for the values that have no digits, in lower case. -/
def readWord? (cs : List Char) : Option Float :=
  let word := String.ofList (cs.map Char.toLower)
  if word = "inf" ∨ word = "infinity" then some (1.0 / 0.0)
  else if word = "nan" then some (0.0 / 0.0)
  else none

/-- The double that a text without a sign stands for. -/
def readUnsigned? (cs : List Char) : Option Float :=
  (readWord? cs).or ((Decimal.read? cs).map Decimal.toFloat)

/-- **The double that a text stands for**, or none when the text is no decimal. Blanks are not
allowed. -/
def read? : List Char → Option Float
  | '-' :: cs => (readUnsigned? cs).map fun x => -x
  | '+' :: cs => readUnsigned? cs
  | cs => readUnsigned? cs

end Formula.Number
