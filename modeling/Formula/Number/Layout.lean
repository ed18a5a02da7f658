import Formula.Number.Binary
import Formula.Number.Shortest

set_option relaxedAutoImplicit false
set_option autoImplicit false

/-!
# The text of a double

A double is written with its shortest digits. Where the point goes, when a power of ten is written
behind the digits, and how whole numbers end are the decisions of a layout.

## Main definitions

* `Formula.Number.Layout` — the decisions of one written form.
* `Formula.Number.Layout.text` — a double in that form.
* `Formula.Number.plain` — digits and a point only.
* `Formula.Number.document` — the form of numbers in JSON documents.
-/

namespace Formula.Number

/-- **The decisions of a written form.** -/
structure Layout where
  /-- The exponents of the first digit for which the form is positional; none means all. -/
  positional : Option (Int × Int)
  /-- Whether a positional whole number ends in `.0`. -/
  keepPoint : Bool
  /-- Which of two equally near decimals is written. -/
  tie : Tie
deriving Repr

namespace Layout

/-- The decimal digits of a natural number. -/
def decimal (n : Nat) : List Char :=
  Nat.toDigits 10 n

/-- So many zeros. -/
def zeros (n : Nat) : List Char :=
  List.replicate n '0'

/-- The positional form of `digits * 10 ^ k`. -/
def positionalText (layout : Layout) (digits : List Char) (k : Int) : List Char :=
  let whole := if layout.keepPoint then ['.', '0'] else []
  if 0 ≤ k then digits ++ zeros k.toNat ++ whole
  else
    let places := (-k).toNat
    if places < digits.length then
      digits.take (digits.length - places) ++ ['.'] ++ digits.drop (digits.length - places)
    else ['0', '.'] ++ zeros (places - digits.length) ++ digits

/-- An exponent with its sign. -/
def exponentText (e : Int) : List Char :=
  (if 0 ≤ e then '+' else '-') :: decimal e.natAbs

/-- The form with one digit before the point and a power of ten behind. -/
def scientificText (digits : List Char) (e : Int) : List Char :=
  let tail := digits.drop 1
  digits.take 1 ++ (if tail.isEmpty then [] else ['.'] ++ tail) ++ ['e'] ++ exponentText e

/-- The text of `n * 10 ^ k`, without a sign. -/
def magnitude (layout : Layout) (n : Nat) (k : Int) : List Char :=
  let digits := decimal n
  let first := k + digits.length - 1
  match layout.positional with
  | some (least, greatest) =>
    if least ≤ first ∧ first ≤ greatest then layout.positionalText digits k
    else scientificText digits first
  | none => layout.positionalText digits k

/-- **The text of a double** in a form. -/
def text (layout : Layout) (x : Float) : String :=
  match Binary.ofFloat x with
  | .nan => "NaN"
  | .infinite negative => if negative then "-inf" else "inf"
  | .finite negative m q =>
    let body :=
      if m = 0 then layout.magnitude 0 0
      else
        let (n, k) := Shortest.digits layout.tie m q Binary.leastExponent
        layout.magnitude n k
    String.ofList (if negative then '-' :: body else body)

end Layout

/-- **Plain text**: digits and a point, never a power of ten; whole numbers have no point, and of
two equally near decimals the larger is written. -/
def plain : Layout := ⟨none, false, .up⟩

/-- **Document text**: positional from `10 ^ -5` to below `10 ^ 16`, with a digit behind the point;
else with a power of ten, whose sign is always written. -/
def document : Layout := ⟨some (-5, 15), true, .even⟩

end Formula.Number
