import Formula.Expression

set_option relaxedAutoImplicit false
set_option autoImplicit false

/-!
# How expressions are written

The relation between trees and texts. Blanks may stand before every operand, operator and closing
parenthesis, before the comma of a call and between the name of a function and its parenthesis;
none are needed. The names of functions are written in any letter case, and equality with one sign
or two. A mark with nothing behind it must not touch a minus sign that a letter follows, since the
two would be read as the name of a constant.

## Main definitions

* `Formula.Operand.Written`, `Formula.Chain.Written` — the texts of a tree.
-/

namespace Formula

/-- Blanks, possibly none. -/
def Blanks (text : List Char) : Prop :=
  ∀ c ∈ text, Text.isBlank c = true

/-- **The spellings of an operator.** -/
def Operator.spellings : Operator → List (List Char)
  | add => [['+']]
  | sub => [['-']]
  | mul => [['*']]
  | div => [['/']]
  | rem => [['%']]
  | pow => [['^']]
  | eq => [['='], ['=', '=']]
  | ne => [['!', '=']]
  | lt => [['<']]
  | le => [['<', '=']]
  | gt => [['>']]
  | ge => [['>', '=']]
  | or => [['|', '|']]
  | and => [['&', '&']]
  | bitOr => [['|']]
  | bitAnd => [['&']]

/-- The text of a path: its names with points between them. -/
def pathText (names : List (List Char)) : List Char :=
  ['.'].intercalate names

/-- **The text of a reference** behind its mark. -/
def Reference.text : Reference → List Char
  | context => []
  | constant negative name => if negative then '-' :: name else name
  | member names => '.' :: pathText names
  | component typeName names => '(' :: typeName ++ [')', '.'] ++ pathText names

/-- **Texts that may touch**: unless the first ends in a mark and the second starts with a minus
sign and a letter. -/
def MayTouch (t u : List Char) : Prop :=
  ¬ (t.getLast? = some '$' ∧ u.head? = some '-' ∧ u.tail.head?.any Char.isAlpha = true)

mutual

/-- **The texts of an operand.** -/
inductive Operand.Written : Operand → List Char → Prop where
  /-- A blank before an operand. -/
  | blank {c : Char} {e : Operand} {t : List Char} :
      Text.isBlank c = true → Operand.Written e t → Operand.Written e (c :: t)
  /-- A literal without a point. -/
  | whole (digits : List Char) : Operand.Written (.literal digits none) digits
  /-- A literal with a point. -/
  | point (digits fraction : List Char) :
      Operand.Written (.literal digits (some fraction)) (digits ++ '.' :: fraction)
  /-- A reference. -/
  | reference (target : Reference) : Operand.Written (.reference target) ('$' :: target.text)
  /-- A plus sign. -/
  | plus {e : Operand} {t : List Char} :
      Operand.Written e t → Operand.Written (.sign false e) ('+' :: t)
  /-- A minus sign. -/
  | minus {e : Operand} {t : List Char} :
      Operand.Written e t → Operand.Written (.sign true e) ('-' :: t)
  /-- A group. -/
  | group {x : Chain} {t : List Char} :
      Chain.Written x t → Operand.Written (.group x) ('(' :: t ++ [')'])
  /-- A call with one argument. -/
  | callOne {f : Builtin} {x : Chain} {name w t : List Char} :
      Text.lower name = f.name.toList → Blanks w → Chain.Written x t →
      Operand.Written (.callOne f x) (name ++ w ++ '(' :: t ++ [')'])
  /-- A call with two arguments. -/
  | callTwo {f : Builtin} {x y : Chain} {name w t u : List Char} :
      Text.lower name = f.name.toList → Blanks w → Chain.Written x t → Chain.Written y u →
      Operand.Written (.callTwo f x y) (name ++ w ++ '(' :: t ++ ',' :: u ++ [')'])
  /-- An operand that is left out. -/
  | empty : Operand.Written .empty []

/-- **The texts of a chain.** -/
inductive Chain.Written : Chain → List Char → Prop where
  /-- An operand and the links behind it. -/
  | mk {e : Operand} {r : Links} {t u : List Char} :
      Operand.Written e t → Links.Written r u → MayTouch t u → Chain.Written (.mk e r) (t ++ u)

/-- The texts of links. -/
inductive Links.Written : Links → List Char → Prop where
  /-- Blanks at the end of a chain. -/
  | nil {w : List Char} : Blanks w → Links.Written .nil w
  /-- An operator, its right operand, and the links behind it. -/
  | cons {op : Operator} {e : Operand} {r : Links} {w token t u : List Char} :
      Blanks w → token ∈ op.spellings → Operand.Written e t → Links.Written r u →
      MayTouch t u → Links.Written (.cons op e r) (w ++ token ++ t ++ u)

end

end Formula
