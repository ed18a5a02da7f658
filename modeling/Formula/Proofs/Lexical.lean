import Formula.Expression.Written
import Formula.Proofs.Run

set_option relaxedAutoImplicit false
set_option autoImplicit false

/-!
# Texts without parts

Literals, operators and the names of functions, each read from the text that the grammar gives it
and from no other. A text is read to its end when what follows cannot be a part of it; for an
operand this is the end of the text, a blank, a closing parenthesis, a comma, or an operator.

## Main definitions

* `Formula.FollowsOperand` — the texts that may follow an operand.
* `Formula.FollowsOperator` — the texts that may follow an operator.
* `Formula.Literal.text` — the text of a literal.
* `Formula.Scanner.applied`, `Formula.Scanner.invoke` — what a call does behind its parenthesis.

## Main results

* `Formula.Scanner.number_text`, `Formula.Scanner.text_of_number` — literals are read from their
  texts, and from no others.
* `Formula.Scanner.operator_spelling`, `Formula.Scanner.spelling_of_operator` — the same for
  operators.
* `Formula.Scanner.call_text`, `Formula.Scanner.text_of_call` — the same for the names of functions.
-/

namespace Formula

variable {ω σ : Type}

/-! ## Characters -/

namespace Text

/-- The code points of the blanks. -/
def blankCodes : List Nat :=
  [0x09, 0x0A, 0x0B, 0x0C, 0x0D, 0x20, 0x85, 0xA0, 0x1680, 0x2000, 0x2001, 0x2002, 0x2003, 0x2004,
    0x2005, 0x2006, 0x2007, 0x2008, 0x2009, 0x200A, 0x2028, 0x2029, 0x202F, 0x205F, 0x3000]

/-- Every blank is listed. -/
lemma mem_blankCodes {c : Char} (h : isBlank c = true) : c.toNat ∈ blankCodes := by
  simp only [isBlank, Bool.or_eq_true, Bool.and_eq_true, decide_eq_true_eq, beq_iff_eq] at h
  simp only [blankCodes, List.mem_cons, List.not_mem_nil, or_false]
  omega

/-- No blank is a character of a name.

**Proof sketch.** The blanks are 25 code points, which the table of letters and digits leaves
out. -/
lemma isWordChar_of_isBlank {c : Char} (h : isBlank c = true) : isWordChar c = false := by
  have hall : ∀ n ∈ blankCodes, isWordChar (Char.ofNat n) = false := by decide +kernel
  have hc := hall _ (mem_blankCodes h)
  rwa [Char.ofNat_toNat] at hc

/-- The letters and digits of ASCII are characters of names. -/
lemma isWordChar_of_isAlphanum {c : Char} (h : c.isAlphanum = true) : isWordChar c = true := by
  have hlt : c.toNat < 128 := by
    have hval : c.val.toNat = c.toNat := rfl
    simp only [Char.isAlphanum, Char.isAlpha, Char.isUpper, Char.isLower, Char.isDigit,
      Bool.or_eq_true, Bool.and_eq_true, decide_eq_true_eq, ge_iff_le,
      UInt32.le_iff_toNat_le] at h
    simp at h
    omega
  simp [isWordChar, isLetterOrDigit, hlt, h]

/-- A character of a name is none of those that stand in no name. -/
lemma ne_of_isWordChar {c d : Char} (hc : isWordChar c = true) (hd : isWordChar d = false) :
    c ≠ d := by
  rintro rfl
  rw [hc] at hd
  exact absurd hd (by simp)

/-- A letter or digit of ASCII is no blank. -/
lemma isBlank_of_isAlphanum {c : Char} (h : c.isAlphanum = true) : isBlank c = false := by
  by_contra hb
  have hw := isWordChar_of_isBlank (Bool.not_eq_false _ ▸ hb)
  rw [isWordChar_of_isAlphanum h] at hw
  exact absurd hw (by simp)

/-- A letter of ASCII is no digit. -/
lemma isDigit_of_isAlpha {c : Char} (h : c.isAlpha = true) : c.isDigit = false := by
  simp only [Char.isAlpha, Char.isUpper, Char.isLower, Char.isDigit, Bool.or_eq_true,
    Bool.and_eq_true, decide_eq_true_eq, ge_iff_le, UInt32.le_iff_toNat_le, Bool.and_eq_false_iff,
    decide_eq_false_iff_not] at h ⊢
  simp at h ⊢
  omega

/-- Only letters and digits have letters and digits for their lower case. -/
lemma isAlphanum_of_toLower {c : Char} (h : c.toLower.isAlphanum = true) :
    c.isAlphanum = true := by
  by_cases hupper : c.isUpper = true
  · rw [Char.isAlphanum, Char.isAlpha, hupper, Bool.true_or, Bool.true_or]
  · rwa [Char.toLower_eq_of_not_isUpper hupper] at h

end Text

namespace Scanner

/-- A character behind an operand is no character of a name. -/
lemma isWordChar_of_endsOperand {c : Char} (h : endsOperand c = true) :
    Text.isWordChar c = false := by
  simp only [endsOperand, Bool.or_eq_true, decide_eq_true_eq] at h
  rcases h with h | h
  · exact Text.isWordChar_of_isBlank h
  · have hall : [')', ',', '+', '-', '*', '/', '%', '^', '=', '!', '<', '>', '|', '&'].all
        (fun c => !Text.isWordChar c) = true := by decide
    simpa using List.all_eq_true.mp hall c h

end Scanner

/-- **A text that may follow an operand**: it is empty, or its first character ends an operand. -/
def FollowsOperand (rest : List Char) : Prop :=
  ∀ c ∈ rest.head?, Scanner.endsOperand c = true

namespace FollowsOperand

variable {rest : List Char} (h : FollowsOperand rest)

include h

/-- It does not continue a name. -/
lemma not_isWordChar : ∀ c ∈ rest.head?, Text.isWordChar c = false :=
  fun c hc => Scanner.isWordChar_of_endsOperand (h c hc)

/-- It does not continue the name of a function. -/
lemma not_isAlphanum : ∀ c ∈ rest.head?, c.isAlphanum = false := by
  intro c hc
  by_contra hne
  have hw := Text.isWordChar_of_isAlphanum (Bool.not_eq_false _ ▸ hne)
  rw [h.not_isWordChar c hc] at hw
  exact absurd hw (by simp)

/-- It does not continue the digits of a literal. -/
lemma not_isDigit : ∀ c ∈ rest.head?, c.isDigit = false := by
  intro c hc
  have ha := h.not_isAlphanum c hc
  simp only [Char.isAlphanum, Bool.or_eq_false_iff] at ha
  exact ha.2

/-- It does not start with a point. -/
lemma ne_point : ∀ c ∈ rest.head?, c ≠ '.' := by
  rintro _ hc rfl
  exact absurd (h _ hc) (by decide)

end FollowsOperand

/-! ## Runs of characters -/

/-- The empty text is one of blanks. -/
lemma Blanks.nil : Blanks [] :=
  List.forall_mem_nil _

/-- Settling moves over blanks. -/
lemma Running.settle_blanks {w : List Char} (hw : Blanks w) (p : Nat) (cs : List Char) (d : Nat)
    (h : σ) : (facing p (w ++ cs) d h).settle = (facing (p + w.length) cs d h).settle := by
  induction w generalizing p with
  | nil => rfl
  | cons c w ih =>
    rw [List.cons_append, settle_facing_cons (hw c List.mem_cons_self),
      ih fun c hc => hw c (List.mem_cons_of_mem _ hc), position_cons]

/-- A run ends in front of the first character that does not belong to it. -/
lemma Text.takeWhile_append {p : Char → Bool} {t rest : List Char} (ht : ∀ c ∈ t, p c = true)
    (hrest : ∀ c ∈ rest.head?, p c = false) : (t ++ rest).takeWhile p = t := by
  rw [List.takeWhile_append_of_pos ht]
  cases rest with
  | nil => simp
  | cons c cs => simp [hrest c rfl]

/-- What follows a run starts with the first character that does not belong to it. -/
lemma Text.dropWhile_append {p : Char → Bool} {t rest : List Char} (ht : ∀ c ∈ t, p c = true)
    (hrest : ∀ c ∈ rest.head?, p c = false) : (t ++ rest).dropWhile p = rest := by
  rw [List.dropWhile_append_of_pos ht]
  cases rest with
  | nil => rfl
  | cons c cs => simp [hrest c rfl]

/-- **Every text starts with a run**, which may be empty, and no character of it follows. -/
lemma Text.exists_run (p : Char → Bool) (cs : List Char) :
    ∃ t rest, cs = t ++ rest ∧ (∀ c ∈ t, p c = true) ∧ ∀ c ∈ rest.head?, p c = false := by
  refine ⟨cs.takeWhile p, cs.dropWhile p, List.takeWhile_append_dropWhile.symm,
    List.all_eq_true.mp List.all_takeWhile, fun c hc => ?_⟩
  have hstop := List.head?_dropWhile_not p cs
  rw [hc] at hstop
  simpa using hstop

namespace Scanner

/-- A run is taken up to the first character that does not belong to it. -/
lemma takeRun_facing {p : Char → Bool} {t rest : List Char} (ht : ∀ c ∈ t, p c = true)
    (hrest : ∀ c ∈ rest.head?, p c = false) (position d : Nat) (h : σ) :
    takeRun p (.facing position (t ++ rest) d h) =
      .ok t (.facing (position + t.length) rest d h) := by
  rw [takeRun_apply]
  simp only [Cursor.run, Cursor.skipWhile, Text.takeWhile_append ht hrest,
    Text.dropWhile_append ht hrest]

end Scanner

/-! ## Literals -/

namespace Literal

/-- **The text of a literal**: its digits, and behind a point those of its fraction. -/
def text (whole : List Char) : Option (List Char) → List Char
  | none => whole
  | some fraction => whole ++ '.' :: fraction

/-- A digit is no point. -/
lemma ne_point {c : Char} (hc : c.isDigit = true) : c ≠ '.' := by
  rintro rfl
  exact absurd hc (by decide)

/-- A digit makes the number of the digits before it no smaller. -/
lemma le_append (n : Nat) (c : Char) : n ≤ append n c := by
  simp only [append]
  omega

/-- The number of some digits is no smaller than that of the first of them. -/
lemma le_foldl_append (digits : List Char) (n : Nat) : n ≤ digits.foldl append n := by
  induction digits generalizing n with
  | nil => exact Nat.le_refl n
  | cons c digits ih => exact Nat.le_trans (le_append n c) (ih (append n c))

/-- The scan stops where neither a digit nor a point follows. -/
lemma scanFrom_stop {rest : List Char} (hdigit : ∀ c ∈ rest.head?, c.isDigit = false)
    (hpoint : ∀ c ∈ rest.head?, c ≠ '.') (inFraction : Bool) (l : Literal) (p : Nat) :
    scanFrom inFraction l p rest = .done l ⟨p, rest⟩ := by
  cases rest with
  | nil => rfl
  | cons c cs => simp [scanFrom, hdigit c rfl, hpoint c rfl]

/-- The scan gathers the digits of a fraction. -/
lemma scanFrom_fraction {digits : List Char} (hd : ∀ c ∈ digits, c.isDigit = true)
    (rest : List Char) (l : Literal) (p : Nat) :
    scanFrom true l p (digits ++ rest) =
      scanFrom true (digits.foldl pushFraction l) (p + digits.length) rest := by
  induction digits generalizing l p with
  | nil => rfl
  | cons c digits ih =>
    have hc : c.isDigit = true := hd c List.mem_cons_self
    have hne : c ≠ '.' := ne_point hc
    simp only [List.cons_append, scanFrom, hne, hc, if_false, not_true_eq_false, if_true]
    rw [ih (fun c hc => hd c (List.mem_cons_of_mem _ hc)), List.foldl_cons, List.length_cons]
    congr 1
    omega

/-- The scan gathers the digits before the point, as long as their number fits.

**Proof sketch.** Induction on the digits. Their number only grows, so it fits at every digit when
it fits at the last. -/
lemma scanFrom_whole {digits : List Char} (hd : ∀ c ∈ digits, c.isDigit = true) (n : Nat)
    (hfits : digits.foldl append n < bound) (rest : List Char) (p : Nat) :
    scanFrom false ⟨n, 0, 0⟩ p (digits ++ rest) =
      scanFrom false ⟨digits.foldl append n, 0, 0⟩ (p + digits.length) rest := by
  induction digits generalizing n p with
  | nil => rfl
  | cons c digits ih =>
    have hc : c.isDigit = true := hd c List.mem_cons_self
    have hne : c ≠ '.' := ne_point hc
    have hfirst : append n c < bound :=
      Nat.lt_of_le_of_lt (le_foldl_append digits (append n c)) hfits
    simp only [List.cons_append, scanFrom, hne, hc, hfirst, if_false, not_true_eq_false, if_true,
      Bool.false_eq_true, pushWhole]
    rw [ih (fun c hc => hd c (List.mem_cons_of_mem _ hc)) _ hfits, List.foldl_cons,
      List.length_cons]
    congr 1
    omega

/-- **A literal is scanned from its text**, and the scan goes on behind it. -/
lemma scan_text_append {whole : List Char} {fraction : Option (List Char)}
    (hl : WellFormed whole fraction) (rest : List Char) (p : Nat) :
    scan ⟨p, text whole fraction ++ rest⟩ =
      scanFrom fraction.isSome (ofDigits whole (fraction.getD []))
        (p + (text whole fraction).length) rest := by
  obtain ⟨-, hwhole, hfraction, hfits⟩ := hl
  show scanFrom false ⟨0, 0, 0⟩ p _ = _
  cases fraction with
  | none =>
    simp only [text]
    rw [scanFrom_whole hwhole 0 hfits]
    rfl
  | some digits =>
    simp only [text, List.append_assoc, List.cons_append]
    rw [scanFrom_whole hwhole 0 hfits]
    simp only [scanFrom, if_true, Bool.false_eq_true, if_false, Option.getD_some]
    simp only [Option.getD_some] at hfraction
    rw [scanFrom_fraction hfraction]
    simp only [List.length_append, List.length_cons, ofDigits, Option.isSome_some]
    congr 1
    omega

/-- The scan ends behind the text of a literal when something follows that may follow an operand. -/
lemma scan_text {whole : List Char} {fraction : Option (List Char)}
    (hl : WellFormed whole fraction) {rest : List Char} (hrest : FollowsOperand rest) (p : Nat) :
    scan ⟨p, text whole fraction ++ rest⟩ =
      .done (ofDigits whole (fraction.getD [])) ⟨p + (text whole fraction).length, rest⟩ := by
  rw [scan_text_append hl, scanFrom_stop hrest.not_isDigit hrest.ne_point]

/-- What the scan gathers behind the point is digits. -/
lemma fraction_of_scanFrom {cs : List Char} {l l' : Literal} {p : Nat} {stop : Cursor}
    (h : scanFrom true l p cs = .done l' stop) :
    ∃ digits : List Char, (∀ c ∈ digits, c.isDigit = true) ∧ cs = digits ++ stop.rest ∧
      l' = digits.foldl pushFraction l := by
  induction cs generalizing l p with
  | nil =>
    obtain ⟨rfl, rfl⟩ : l = l' ∧ ⟨p, []⟩ = stop := by simpa [scanFrom] using h
    exact ⟨[], by simp, rfl, rfl⟩
  | cons c cs ih =>
    simp only [scanFrom, if_true] at h
    split_ifs at h with hpoint hdigit
    · obtain ⟨digits, hd, hcs, hl⟩ := ih h
      exact ⟨c :: digits, by simpa using ⟨hdigit, hd⟩, by rw [hcs]; rfl, hl⟩
    · obtain ⟨rfl, rfl⟩ : l = l' ∧ ⟨p, c :: cs⟩ = stop := by simpa using h
      exact ⟨[], by simp, rfl, rfl⟩

/-- **What a scan gathers is a literal**: digits whose number fits, and digits behind a point if one
was read.

**Proof sketch.** Induction on the text. A digit is put in front of the digits that the induction
hypothesis gives for the rest, and at the point the digits of the fraction are those that
`fraction_of_scanFrom` gives. -/
lemma whole_of_scanFrom {cs : List Char} {n : Nat} (hn : n < bound) {l' : Literal} {p : Nat}
    {stop : Cursor} (h : scanFrom false ⟨n, 0, 0⟩ p cs = .done l' stop) :
    ∃ (whole : List Char) (fraction : Option (List Char)), (∀ c ∈ whole, c.isDigit = true) ∧
      (∀ c ∈ fraction.getD [], c.isDigit = true) ∧ whole.foldl append n < bound ∧
      cs = text whole fraction ++ stop.rest ∧
      l' = (fraction.getD []).foldl pushFraction ⟨whole.foldl append n, 0, 0⟩ := by
  induction cs generalizing n p with
  | nil =>
    obtain ⟨rfl, rfl⟩ : ⟨n, 0, 0⟩ = l' ∧ ⟨p, []⟩ = stop := by simpa [scanFrom] using h
    exact ⟨[], none, by simp, by simp, hn, rfl, rfl⟩
  | cons c cs ih =>
    simp only [scanFrom, Bool.false_eq_true, if_false, pushWhole] at h
    split_ifs at h with hpoint hdigit hfits
    · obtain ⟨digits, hd, hcs, hl⟩ := fraction_of_scanFrom h
      exact ⟨[], some digits, by simp, hd, hn, by rw [hpoint, hcs]; rfl, hl⟩
    · obtain ⟨whole, fraction, hw, hf, hbound, hcs, hl⟩ := ih hfits h
      refine ⟨c :: whole, fraction, by simpa using ⟨hdigit, hw⟩, hf, hbound, ?_, hl⟩
      rw [hcs]
      cases fraction <;> rfl
    · obtain ⟨rfl, rfl⟩ : ⟨n, 0, 0⟩ = l' ∧ ⟨p, c :: cs⟩ = stop := by simpa using h
      exact ⟨[], none, by simp, by simp, hn, rfl, rfl⟩

/-- From a digit on, what a scan gathers is a literal that can be written. -/
lemma wellFormed_of_scan {c : Char} (hc : c.isDigit = true) {cs : List Char} {l : Literal}
    {p : Nat} {stop : Cursor} (h : scan ⟨p, c :: cs⟩ = .done l stop) :
    ∃ (whole : List Char) (fraction : Option (List Char)), WellFormed whole fraction ∧
      c :: cs = text whole fraction ++ stop.rest ∧ l = ofDigits whole (fraction.getD []) := by
  have hne : c ≠ '.' := ne_point hc
  change scanFrom false ⟨0, 0, 0⟩ p (c :: cs) = .done l stop at h
  simp only [scanFrom, hne, hc, pushWhole, if_false, not_true_eq_false, Bool.false_eq_true] at h
  split_ifs at h with hfits
  obtain ⟨whole, fraction, hw, hf, hbound, hcs, hl⟩ := whole_of_scanFrom hfits h
  refine ⟨c :: whole, fraction, ⟨by simp, by simpa using ⟨hc, hw⟩, hf, hbound⟩, ?_, hl⟩
  rw [hcs]
  cases fraction <;> rfl

end Literal

namespace Scanner

/-- **A literal is read from its text** when something follows that may follow an operand. -/
lemma number_text {whole : List Char} {fraction : Option (List Char)}
    (hl : Literal.WellFormed whole fraction) {rest : List Char} (hrest : FollowsOperand rest)
    (p d : Nat) (h : σ) :
    number (.facing p (Literal.text whole fraction ++ rest) d h) =
      .ok (Literal.ofDigits whole (fraction.getD [])).toFloat
        (.facing (p + (Literal.text whole fraction).length) rest d h) := by
  rw [number_apply]
  simp only [Literal.scan_text hl hrest]

/-- **What is read from a digit on is the text of a literal.** -/
lemma text_of_number {c : Char} (hc : c.isDigit = true) {p d : Nat} {cs : List Char} {h : σ}
    {t : Running σ} {x : Float} (hrun : number (.facing p (c :: cs) d h) = .ok x t) :
    ∃ (whole : List Char) (fraction : Option (List Char)), Literal.WellFormed whole fraction ∧
      c :: cs = Literal.text whole fraction ++ t.cursor.rest ∧
      x = (Literal.ofDigits whole (fraction.getD [])).toFloat ∧ t.depth = d ∧ t.host = h := by
  rw [number_apply] at hrun
  cases hscan : Literal.scan ⟨p, c :: cs⟩ with
  | refused violation stop => simp [hscan] at hrun
  | done l stop =>
    obtain ⟨rfl, rfl⟩ : l.toFloat = x ∧ .facing stop.position stop.rest d h = t := by
      simpa [hscan] using hrun
    obtain ⟨whole, fraction, hl, hcs, rfl⟩ := Literal.wellFormed_of_scan hc hscan
    exact ⟨whole, fraction, hl, hcs, rfl, rfl, rfl⟩

end Scanner

/-! ## Operators -/

/-- **The texts that may follow an operator**: those that do not make it a longer one. -/
def FollowsOperator (rest : List Char) : Prop :=
  ∀ c ∈ rest.head?, c ∉ ['=', '|', '&']

namespace FollowsOperator

variable {c : Char}

/-- Characters of a class that leaves these few out do not make an operator longer. -/
lemma of_class {p : Char → Bool} (hp : ['=', '|', '&'].all (fun c => !p c) = true)
    (hc : p c = true) (cs : List Char) : FollowsOperator (c :: cs) := by
  rintro _ ⟨⟩ hmem
  have hnot := List.all_eq_true.mp hp c hmem
  rw [hc] at hnot
  exact absurd hnot (by decide)

/-- A blank does not make an operator longer. -/
lemma of_isBlank (hc : Text.isBlank c = true) (cs : List Char) : FollowsOperator (c :: cs) :=
  of_class (by decide) hc cs

/-- Letters and digits do not make an operator longer. -/
lemma of_isAlphanum (hc : c.isAlphanum = true) (cs : List Char) : FollowsOperator (c :: cs) :=
  of_class (by decide) hc cs

end FollowsOperator

namespace Operator

/-- A spelling starts with a character that ends operands and closes nothing. -/
lemma head_of_mem_spellings {op : Operator} {token : List Char} (h : token ∈ op.spellings) :
    ∃ c tail, token = c :: tail ∧ Text.isBlank c = false ∧ Scanner.endsOperand c = true ∧
      c ≠ ')' ∧ c ≠ ',' := by
  cases op <;> simp only [spellings, List.mem_cons, List.not_mem_nil, or_false] at h
  case eq => rcases h with rfl | rfl <;> exact ⟨_, _, rfl, by decide⟩
  all_goals exact ⟨_, _, h, by decide⟩

/-- A spelling is read as its operator when nothing follows that would make it a longer one. -/
lemma read?_spelling {op : Operator} {c : Char} {tail rest : List Char}
    (h : c :: tail ∈ op.spellings) (hrest : FollowsOperator rest) :
    read? c (tail ++ rest).head? = some (op, (c :: tail).length) := by
  have heq : rest.head? ≠ some '=' := fun hx => hrest _ hx (by decide)
  have hor : rest.head? ≠ some '|' := fun hx => hrest _ hx (by decide)
  have hand : rest.head? ≠ some '&' := fun hx => hrest _ hx (by decide)
  cases op <;>
    simp only [spellings, List.mem_cons, List.not_mem_nil, or_false, List.cons.injEq] at h
  case eq => rcases h with ⟨rfl, rfl⟩ | ⟨rfl, rfl⟩ <;> simp [read?, heq]
  all_goals
    obtain ⟨rfl, rfl⟩ := h
    simp [read?, heq, hor, hand]

/-- What is read as an operator is one of its spellings, of one character or of two. -/
lemma spelling_of_read? {op : Operator} {c : Char} {next : Option Char} {width : Nat}
    (h : read? c next = some (op, width)) :
    width = 1 ∧ [c] ∈ op.spellings ∨
      ∃ x, next = some x ∧ width = 2 ∧ [c, x] ∈ op.spellings := by
  unfold read? at h
  split at h
  all_goals try split_ifs at h
  all_goals simp only [Option.some.injEq, Prod.mk.injEq, reduceCtorEq] at h
  all_goals
    obtain ⟨rfl, rfl⟩ := h
    simp [spellings, *]

end Operator

namespace Scanner

/-- **An operator is read from each of its spellings** when nothing follows that would make it a
longer one. -/
lemma operator_spelling {op : Operator} {c : Char} {tail rest : List Char}
    (htoken : c :: tail ∈ op.spellings) (hrest : FollowsOperator rest) (p d : Nat) (h : σ) :
    operator c (.facing p (c :: tail ++ rest) d h) =
      .ok op (.facing (p + (c :: tail).length) rest d h) := by
  have hnext : Cursor.next ⟨p, c :: tail ++ rest⟩ = (tail ++ rest).head? := rfl
  rw [operator_apply]
  simp only [hnext, Operator.read?_spelling htoken hrest, Cursor.advanceBy]
  simp

/-- **What is read as an operator is one of its spellings.** -/
lemma spelling_of_operator {op : Operator} {c : Char} {cs : List Char} {p d : Nat} {h : σ}
    {t : Running σ} (hrun : operator c (.facing p (c :: cs) d h) = .ok op t) :
    ∃ token ∈ op.spellings, c :: cs = token ++ t.cursor.rest ∧ t.depth = d ∧ t.host = h := by
  rw [operator_apply] at hrun
  cases hread : Operator.read? c cs.head? with
  | none =>
    have hnext : Operator.read? c (Cursor.next ⟨p, c :: cs⟩) = none := hread
    simp [hnext] at hrun
  | some found =>
    obtain ⟨op', width⟩ := found
    have hnext : Operator.read? c (Cursor.next ⟨p, c :: cs⟩) = some (op', width) := hread
    simp only [hnext, EStateM.Result.ok.injEq] at hrun
    obtain ⟨rfl, rfl⟩ := hrun
    rcases Operator.spelling_of_read? hread with ⟨rfl, hmem⟩ | ⟨x, hx, rfl, hmem⟩
    · exact ⟨[c], hmem, rfl, rfl, rfl⟩
    · obtain ⟨cs, rfl⟩ := List.head?_eq_some_iff.mp hx
      exact ⟨[c, x], hmem, rfl, rfl, rfl⟩

end Scanner

/-! ## Calls -/

namespace Builtin

/-- The name of a function starts with a letter, and letters and digits follow. -/
lemma name_spec (f : Builtin) :
    (∀ c ∈ f.name.toList, c.isAlphanum = true) ∧ f.name.toList.head?.any Char.isAlpha = true := by
  have hall : f.name.toList.all Char.isAlphanum = true := by cases f <;> decide
  exact ⟨List.all_eq_true.mp hall, by cases f <;> decide⟩

variable {f : Builtin} {name : List Char} (h : Text.lower name = f.name.toList)

include h

/-- In any letter case a name is made of letters and digits. -/
lemma isAlphanum_of_lower : ∀ c ∈ name, c.isAlphanum = true :=
  fun _ hc => Text.isAlphanum_of_toLower (f.name_spec.1 _ (h ▸ List.mem_map_of_mem hc))

/-- In any letter case a name starts with a letter. -/
lemma head_of_lower : ∃ c cs, name = c :: cs ∧ c.isAlpha = true := by
  have hhead := f.name_spec.2
  cases name with
  | nil => simp [← h, Text.lower] at hhead
  | cons c cs =>
    refine ⟨c, cs, rfl, ?_⟩
    rw [← h] at hhead
    rw [← Char.isAlpha_toLower_eq_isAlpha]
    exact hhead

/-- In any letter case a function is found under its name. -/
lemma named?_lower : named? (String.ofList (Text.lower name)) = some f := by
  rw [h, String.ofList_toList]
  exact named?_name f

omit h in
/-- A function is only found under its name, in any letter case. -/
lemma lower_of_named? (hf : named? (String.ofList (Text.lower name)) = some f) :
    Text.lower name = f.name.toList := by
  rw [← name_of_named? hf, String.toList_ofList]

end Builtin

namespace Scanner

variable (env : Env ω σ) (inner : Option (Scanner σ Float))

/-- Calls a function with arguments, which it must take. -/
def invoke (f : Builtin) (args : Arguments) : Scanner σ Float := do
  match ← onHost (f.call env.random args) with
  | some result => return result
  | none => throw (.argumentCount f)

/-- Reads the arguments of a call of a function, one level deeper, and calls it. -/
def applied (f : Builtin) : Scanner σ Float :=
  nested env inner (arguments f) >>= invoke env f

/-- **A call is read behind a name and blanks**, if a parenthesis follows them. -/
lemma call_apply (s : Running σ) :
    call env inner s =
      (accept '(' >>= fun opened =>
        if opened then openParen >>= fun _ =>
          match Builtin.named? (String.ofList (Text.lower (s.cursor.run Char.isAlphanum))) with
          | none => throw (.unknownFunction
              (String.ofList (Text.lower (s.cursor.run Char.isAlphanum))))
          | some f => applied env inner f
        else fail (.missingOpen (String.ofList (Text.lower (s.cursor.run Char.isAlphanum)))))
        (Running.settle { s with cursor := s.cursor.skipWhile Char.isAlphanum }) := rfl

/-- **A name is read up to the parenthesis** behind it, which is counted whether or not there is a
function with that name. -/
lemma call_name {name w : List Char} (hname : ∀ c ∈ name, c.isAlphanum = true) (hw : Blanks w)
    (cs : List Char) (p d : Nat) (h : σ) :
    call env inner (.facing p (name ++ (w ++ '(' :: cs)) d h) =
      (match Builtin.named? (String.ofList (Text.lower name)) with
        | none => throw (.unknownFunction (String.ofList (Text.lower name)))
        | some f => applied env inner f : Scanner σ Float)
        (.facing (p + name.length + w.length + 1) cs (d + 1) h) := by
  have hend : ∀ c ∈ (w ++ '(' :: cs).head?, c.isAlphanum = false := by
    intro c hc
    cases w with
    | nil =>
      obtain rfl : '(' = c := by simpa using hc
      decide
    | cons b bs =>
      obtain rfl : b = c := by simpa using hc
      by_contra hne
      have hblank := hw b List.mem_cons_self
      rw [Text.isBlank_of_isAlphanum (Bool.not_eq_false _ ▸ hne)] at hblank
      exact absurd hblank (by simp)
  have hskip : (skipBlanks : Scanner σ Unit) (.facing (p + name.length) (w ++ '(' :: cs) d h) =
      .ok () (.facing (p + name.length + w.length) ('(' :: cs) d h) := by
    show EStateM.Result.ok () (Running.settle _) = _
    rw [Running.settle_blanks hw, Running.settle_facing_of_head]
    rintro _ ⟨⟩
    decide
  unfold call
  rw [bind_of_ok (takeRun_facing hname hend p d h), bind_of_ok hskip,
    bind_of_ok (accept_cons _ _ _ _ _)]
  rfl

/-- **The name of a function is read up to the parenthesis** behind it. -/
lemma call_text {f : Builtin} {name w : List Char} (hname : Text.lower name = f.name.toList)
    (hw : Blanks w) (cs : List Char) (p d : Nat) (h : σ) :
    call env inner (.facing p (name ++ (w ++ '(' :: cs)) d h) =
      applied env inner f (.facing (p + name.length + w.length + 1) cs (d + 1) h) := by
  rw [call_name env inner (Builtin.isAlphanum_of_lower hname) hw, Builtin.named?_lower hname]

/-- **A call that is read is that of a function**, whose name stands before the parenthesis. -/
lemma text_of_call {s t : Running σ} {x : Float} (hrun : call env inner s = .ok x t) :
    ∃ (f : Builtin) (name w cs : List Char) (p : Nat), Text.lower name = f.name.toList ∧
      Blanks w ∧ s.cursor.rest = name ++ (w ++ '(' :: cs) ∧
      applied env inner f (.facing p cs (s.depth + 1) s.host) = .ok x t := by
  rw [call_apply] at hrun
  obtain ⟨⟨⟨p, rest⟩, d⟩, h⟩ := s
  generalize hname : Cursor.run Char.isAlphanum ⟨p, rest⟩ = name at hrun
  generalize hbehind : Cursor.skipWhile Char.isAlphanum ⟨p, rest⟩ = behind at hrun
  have hrest : rest = name ++ behind.rest := by
    rw [← hname, ← hbehind]
    exact List.takeWhile_append_dropWhile.symm
  obtain ⟨opened, u, hopen, hcall⟩ := bind_eq_ok.mp hrun
  obtain ⟨hrestu, hdepthu, hhostu⟩ := rest_of_accept hopen
  cases opened with
  | false => cases hcall
  | true =>
    simp only [if_true] at hcall hrestu
    cases hf : Builtin.named? (String.ofList (Text.lower name)) with
    | none =>
      rw [hf] at hcall
      cases hcall
    | some f =>
      rw [hf] at hcall
      obtain ⟨⟨⟨q, cs⟩, e⟩, g⟩ := u
      obtain rfl : e = d := hdepthu
      obtain rfl : g = h := hhostu
      refine ⟨f, name, behind.rest.takeWhile Text.isBlank, cs, q, Builtin.lower_of_named? hf,
        List.all_eq_true.mp List.all_takeWhile, ?_, hcall⟩
      have hbehind' : behind.rest.dropWhile Text.isBlank = '(' :: cs := hrestu
      rw [← hbehind', List.takeWhile_append_dropWhile]
      exact hrest

end Scanner

end Formula
