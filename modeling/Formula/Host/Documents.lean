import Formula.Host
import Formula.Json.Value
import Formula.Number.Decimal
import Formula.Text.Blank
import Formula.Text.LetterCase

set_option relaxedAutoImplicit false
set_option autoImplicit false

/-!
# Documents as objects

JSON documents read as the objects of formulas. Members are the members of objects, found by their
exact key and otherwise without regard to the case of ASCII letters, and the items of arrays, found
by their index. Components stand in the object under `components`, or else beside it.

## Main definitions

* `Formula.Json.reading` — the number that a document stands for.
* `Formula.Json.member?` — the member with a name.
* `Formula.Json.component?` — the component with a type name.
* `Formula.documents` — documents as an object model.
-/

namespace Formula

namespace Json

/-- **The number that a document stands for**: its own value, one or zero for a truth value, the
decimal that a string holds, and zero for all else. -/
def reading : Json → Float
  | number n => n.toFloat
  | bool b => if b then 1.0 else 0.0
  | string s => (Formula.Number.read? (Text.trimBlanks s.toList)).getD 0.0
  | _ => 0.0

/-- Indices are below this bound. -/
def indexBound : Nat := Nat.pow 2 64

/-- The index that a name writes: an optional plus sign and digits. -/
def index? (name : String) : Option Nat :=
  let digits := match name.toList with
    | '+' :: cs => cs
    | cs => cs
  if digits.isEmpty ∨ ¬ digits.all Char.isDigit then none
  else
    let n := Formula.Number.natOfDigits digits
    if n < indexBound then some n else none

/-- The value of the first member whose key equals a name up to case. -/
def findFolded? (name : String) (members : List (String × Json)) : Option Json :=
  (members.find? fun m => Text.sameLetters m.1 name).map Prod.snd

/-- **The member with a name**: of an object the value under that very key, else under the first
key that equals it up to case; of an array the item with that index. -/
def member? : Json → String → Option Json
  | object members, name => (find? name members).or (findFolded? name members)
  | array items, name => (index? name).bind fun i => items[i]?
  | _, _ => none

/-- **The component with a type name**: the value under that key in the object under `components`,
else under that key in the context itself. -/
def component? (context : Json) (typeName : String) : Option Json :=
  ((context.field? "components").bind (field? typeName)).or (context.field? typeName)

end Json

/-- **Documents as objects.** -/
def documents {σ : Type} : ObjectModel Json σ where
  number v := pure v.reading
  member v name := pure (v.member? name)
  component v typeName := pure (v.component? typeName)

end Formula
