set_option relaxedAutoImplicit false
set_option autoImplicit false

/-!
# Sets of code points as run lengths

A property of characters that a standard lists code point by code point is kept as the lengths of
its runs: so many code points outside the set, so many inside it, so many outside, and so on.
What follows the last run lies outside.

## Main definitions

* `Formula.Text.inRuns` — membership in the set that a list of run lengths describes.
-/

namespace Formula.Text

/-- **Membership by run lengths**: the list alternates a gap and a run, the first gap starting at
`n = 0`; `n` is in the set when it falls inside a run. -/
def inRuns : List Nat → Nat → Bool
  | gap :: run :: rest, n =>
    if n < gap then false
    else if n < gap + run then true
    else inRuns rest (n - (gap + run))
  | _, _ => false

end Formula.Text
