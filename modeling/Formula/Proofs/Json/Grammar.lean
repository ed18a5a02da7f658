import Formula.Json.Reader
import Formula.Proofs.Literals

set_option relaxedAutoImplicit false
set_option autoImplicit false

/-!
# The grammar of JSON texts

Which texts write which values, said without a reader. A string is written in pieces, of which those
that are units of UTF-16 may have to be taken in pairs; a number is written with its digits. Between
the tokens white space may stand.

A value is kept as it is written: the value of a number is not taken here, and a string may name no
characters at all, since half of a pair may be missing.

## Main definitions

* `Formula.Json.Grammar.Piece` — the pieces of a string, and `Formula.Json.Grammar.decode`, what
  they stand for.
* `Formula.Json.Grammar.Numeral` — the parts of a number.
* `Formula.Json.Grammar.Value` — a value as it is written.
* `Formula.Json.Grammar.Written` — the texts of a value.
* `Formula.Json.Grammar.Value.natural?` — the natural number of 64 bits that is written.
-/

namespace Formula.Json.Grammar

/-- **White space**, which may stand between tokens. -/
def Spaces (cs : List Char) : Prop :=
  ∀ c ∈ cs, Reader.isSpace c = true

instance (cs : List Char) : Decidable (Spaces cs) :=
  decidable_of_iff (cs.all Reader.isSpace = true) List.all_eq_true

/-! ## Strings -/

/-- **A piece of a string.** -/
inductive Piece where
  /-- A character that stands for itself. -/
  | plain (c : Char)
  /-- A character behind a reverse solidus. -/
  | short (mark : Char)
  /-- A unit of UTF-16, given by its hexadecimal digits. -/
  | unit (digits : List Char)

namespace Piece

/-- **The pieces that may stand in a string.** -/
def WellFormed : Piece → Prop
  | plain c => 0x20 ≤ c.toNat ∧ c ≠ '"' ∧ c ≠ '\\'
  | short mark => mark ∈ ['"', '\\', '/', 'b', 'f', 'n', 'r', 't']
  | unit digits => digits.length = 4 ∧ ∀ c ∈ digits, (hexDigit? c).isSome

instance : DecidablePred WellFormed
  | plain _ => inferInstanceAs (Decidable (_ ∧ _))
  | short _ => inferInstanceAs (Decidable (_ ∈ _))
  | unit digits =>
    decidable_of_iff (digits.length = 4 ∧ digits.all (fun c => (hexDigit? c).isSome) = true)
      (and_congr_right fun _ => List.all_eq_true)

/-- The text of a piece. -/
def text : Piece → List Char
  | plain c => [c]
  | short mark => ['\\', mark]
  | unit digits => '\\' :: 'u' :: digits

end Piece

/-- The character that a mark behind a reverse solidus stands for. -/
def shortChar : Char → Char
  | 'b' => '\x08'
  | 'f' => '\x0c'
  | 'n' => '\n'
  | 'r' => '\r'
  | 't' => '\t'
  | c => c

/-- The number of a unit of UTF-16. -/
def unitOf (digits : List Char) : Nat :=
  (natOfHex? digits).getD 0

/-- The units that are the first half of a pair. -/
def IsHigh (unit : Nat) : Prop :=
  0xD800 ≤ unit ∧ unit ≤ 0xDBFF

/-- The units that are the second half of a pair. -/
def IsLow (unit : Nat) : Prop :=
  0xDC00 ≤ unit ∧ unit ≤ 0xDFFF

instance (unit : Nat) : Decidable (IsHigh unit) :=
  inferInstanceAs (Decidable (_ ∧ _))

instance (unit : Nat) : Decidable (IsLow unit) :=
  inferInstanceAs (Decidable (_ ∧ _))

/-- The character of a pair. -/
def pair (high low : Nat) : Char :=
  Char.ofNat ((high - 0xD800) * 0x400 + (low - 0xDC00) + 0x10000)

/-- **The characters that the pieces of a string stand for.** There are none if half of a pair is
missing. -/
def decode : List Piece → Option (List Char)
  | [] => some []
  | .plain c :: rest => (decode rest).map (c :: ·)
  | .short mark :: rest => (decode rest).map (shortChar mark :: ·)
  | .unit u :: rest =>
    if IsLow (unitOf u) then none
    else if IsHigh (unitOf u) then
      match rest with
      | .unit v :: behind =>
        if IsLow (unitOf v) then (decode behind).map (pair (unitOf u) (unitOf v) :: ·) else none
      | _ => none
    else (decode rest).map (Char.ofNat (unitOf u) :: ·)

/-- The text of the pieces of a string. -/
def piecesText (pieces : List Piece) : List Char :=
  pieces.flatMap Piece.text

/-- The text of a first piece stands in front of that of the others. -/
lemma piecesText_cons_append (p : Piece) (pieces : List Piece) (cs : List Char) :
    piecesText (p :: pieces) ++ cs = p.text ++ (piecesText pieces ++ cs) := by
  rw [piecesText, List.flatMap_cons, List.append_assoc, piecesText]

/-! ## Numbers -/

/-- **The parts of a number.** -/
structure Numeral where
  /-- Whether a minus sign comes first. -/
  negative : Bool
  /-- The digits before the point. -/
  whole : List Char
  /-- The digits behind the point, if there is one. -/
  fraction : Option (List Char)
  /-- The mark of a power of ten, its sign and its digits, if there is one. -/
  power : Option (Char × Option Char × List Char)

namespace Numeral

/-- **The parts of which a number is made.** -/
structure WellFormed (x : Numeral) : Prop where
  /-- There are digits before the point. -/
  digits : ∀ c ∈ x.whole, c.isDigit = true
  /-- A zero stands alone there, and otherwise the first of them is none. -/
  whole : x.whole = ['0'] ∨ ∃ c cs, x.whole = c :: cs ∧ c ≠ '0'
  /-- There are digits behind the point. -/
  fraction : ∀ digits ∈ x.fraction, digits ≠ [] ∧ ∀ c ∈ digits, c.isDigit = true
  /-- There are digits in a power of ten, behind its mark and a sign. -/
  power : ∀ mark sign digits, (mark, sign, digits) ∈ x.power →
    (mark = 'e' ∨ mark = 'E') ∧ (∀ s ∈ sign, s = '+' ∨ s = '-') ∧ digits ≠ [] ∧
      ∀ c ∈ digits, c.isDigit = true

/-- The text of what stands behind the digits before the point. -/
def behindWhole (x : Numeral) : List Char :=
  (x.fraction.elim [] fun digits => '.' :: digits) ++
    x.power.elim [] fun p => p.1 :: p.2.1.toList ++ p.2.2

/-- The text of a number. -/
def text (x : Numeral) : List Char :=
  (if x.negative then ['-'] else []) ++ x.whole ++ x.behindWhole

/-- **The natural number of 64 bits** that is written with its digits only. -/
def natural? (x : Numeral) : Option Nat :=
  if x.negative = false ∧ x.fraction = none ∧ x.power = none ∧ Literal.decimal x.whole < 2 ^ 64 then
    some (Literal.decimal x.whole)
  else none

end Numeral

/-! ## Values -/

/-- **A value as it is written.** -/
inductive Value where
  | null
  | bool (value : Bool)
  | number (x : Numeral)
  | string (pieces : List Piece)
  | array (items : List Value)
  | object (members : List (List Piece × Value))

/-- **The natural number of 64 bits** that a value is. Negative numbers, those with a fraction or a
power of ten, larger ones, and values that are no numbers are none. -/
def Value.natural? : Value → Option Nat
  | number x => x.natural?
  | _ => none

/-- What stands in front of an item or a member: white space, and behind another one a comma. -/
def Lead : Bool → List Char → Prop
  | true, cs => Spaces cs
  | false, cs => ∃ before behind, Spaces before ∧ Spaces behind ∧ cs = before ++ ',' :: behind

/-- **The texts of items**, up to the bracket behind them; the flag tells that no item stands in
front of them. -/
inductive Items (Written : Value → List Char → Prop) : Bool → List Value → List Char → Prop where
  | nil {first : Bool} {gap : List Char} : Spaces gap → Items Written first [] gap
  | cons {first : Bool} {lead text cs : List Char} {value : Value} {rest : List Value} :
      Lead first lead → Written value text → Items Written false rest cs →
      Items Written first (value :: rest) (lead ++ text ++ cs)

/-- **The texts of members**, up to the brace behind them; the flag tells that no member stands in
front of them. -/
inductive Members (Written : Value → List Char → Prop) :
    Bool → List (List Piece × Value) → List Char → Prop where
  | nil {first : Bool} {gap : List Char} : Spaces gap → Members Written first [] gap
  | cons {first : Bool} {lead gap gap' text cs : List Char} {name : List Piece} {value : Value}
      {rest : List (List Piece × Value)} :
      Lead first lead → (∀ p ∈ name, p.WellFormed) → Spaces gap → Spaces gap' →
      Written value text → Members Written false rest cs →
      Members Written first ((name, value) :: rest)
        (lead ++ '"' :: piecesText name ++ '"' :: gap ++ ':' :: gap' ++ text ++ cs)

/-- **The texts of a value**, without white space around it. -/
inductive Written : Value → List Char → Prop where
  | null : Written .null ['n', 'u', 'l', 'l']
  | true : Written (.bool true) ['t', 'r', 'u', 'e']
  | false : Written (.bool false) ['f', 'a', 'l', 's', 'e']
  | number {x : Numeral} : x.WellFormed → Written (.number x) x.text
  | string {pieces : List Piece} : (∀ p ∈ pieces, p.WellFormed) →
      Written (.string pieces) ('"' :: piecesText pieces ++ ['"'])
  | array {items : List Value} {cs : List Char} : Items Written true items cs →
      Written (.array items) ('[' :: cs ++ [']'])
  | object {members : List (List Piece × Value)} {cs : List Char} :
      Members Written true members cs → Written (.object members) ('{' :: cs ++ ['}'])

/-- Digits write a number, if no zero stands in front of others. -/
lemma Numeral.written_of_digits {cs : List Char}
    (hdigits : ∀ c ∈ cs, c.isDigit = true)
    (hwhole : cs = ['0'] ∨ ∃ c cs', cs = c :: cs' ∧ c ≠ '0') :
    Written (.number ⟨false, cs, none, none⟩) cs := by
  have hnumber : Written (.number ⟨false, cs, none, none⟩) ([] ++ cs ++ []) :=
    .number ⟨hdigits, hwhole, fun _ h => (Option.not_mem_none _ h).elim,
      fun _ _ _ h => (Option.not_mem_none _ h).elim⟩
  simpa using hnumber

/-- **The whole texts of a value**, with white space around it. -/
def IsText (value : Value) (text : String) : Prop :=
  ∃ before cs behind, Spaces before ∧ Written value cs ∧ Spaces behind ∧
    text.toList = before ++ cs ++ behind

end Formula.Json.Grammar
