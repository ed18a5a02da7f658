import Formula.Proofs.Likeness.Operands

set_option relaxedAutoImplicit false
set_option autoImplicit false

/-!
# Blanks only separate

How many blanks stand between two parts of a formula does not matter, nor which ones, nor whether
any stand before the first part or behind the last; only between the mark of a reference and the
parenthesis of a type name they would. Texts that are the same up to this are read alike, so they
have the same value or the same error, and where they are malformed equally many characters other
than blanks lie before the place.

## Main definitions

* `Formula.Text.collapse` — a text with every run of blanks written as one space.
* `Formula.Text.ink` — how many characters of a text are no blanks.
* `Formula.Likeness.upToBlanks` — texts that are the same up to blanks are read alike.
* `Formula.SameUpToBlanks` — the same verdict, told of two such texts.

## Main results

* `Formula.eval_up_to_blanks` — texts that are the same up to blanks have the same verdict.
-/

namespace Formula

open Scanner

variable {ω σ : Type}

/-! ## Runs of blanks -/

namespace Text

/-- **A text with every longest run of blanks written as one space**: blanks with another blank
behind them are left out. -/
def collapse : List Char → List Char
  | [] => []
  | c :: cs =>
    if isBlank c then
      if cs.head?.any isBlank then collapse cs else ' ' :: collapse cs
    else c :: collapse cs

/-- **How many characters are no blanks.** -/
def ink (cs : List Char) : Nat :=
  cs.countP fun c => !isBlank c

/-- A text without the blanks at its end. -/
def trimEnd (cs : List Char) : List Char :=
  (dropBlanks cs.reverse).reverse

/-- A text without the blanks at its end, and with a space for every other run of blanks. -/
def tidy (cs : List Char) : List Char :=
  collapse (trimEnd cs)

/-- Trimming leaves out the blanks at the start and those at the end. -/
lemma trimBlanks_eq (cs : List Char) : trimBlanks cs = trimEnd (dropBlanks cs) := rfl

variable {c : Char}

/-- Of a text that starts with no blank, nothing is left out there. -/
lemma dropBlanks_cons_of_neg (hc : isBlank c = false) (cs : List Char) :
    dropBlanks (c :: cs) = c :: cs :=
  List.dropWhile_cons_of_neg (by simp [hc])

/-- A blank at the start is left out. -/
lemma dropBlanks_cons_of_pos (hc : isBlank c = true) (cs : List Char) :
    dropBlanks (c :: cs) = dropBlanks cs :=
  List.dropWhile_cons_of_pos hc

/-- A character is at the end only if nothing but blanks follows, and is left out only as a
blank. -/
lemma trimEnd_cons (c : Char) (cs : List Char) :
    trimEnd (c :: cs) = if trimEnd cs = [] ∧ isBlank c = true then [] else c :: trimEnd cs := by
  have hempty : (cs.reverse.dropWhile isBlank).isEmpty = true ↔ trimEnd cs = [] := by
    rw [trimEnd, List.reverse_eq_nil_iff, List.isEmpty_iff, dropBlanks]
  show (dropBlanks (c :: cs).reverse).reverse = _
  rw [List.reverse_cons, dropBlanks, List.dropWhile_append]
  by_cases hcs : trimEnd cs = []
  · rw [if_pos (hempty.mpr hcs)]
    by_cases hc : isBlank c = true
    · simp [hcs, hc]
    · simp [hcs, hc]
  · rw [if_neg fun h => hcs (hempty.mp h), if_neg fun h => hcs h.1, List.reverse_append]
    rfl

/-- A character that is no blank is kept in front of what is left. -/
lemma trimEnd_cons_of_neg (hc : isBlank c = false) (cs : List Char) :
    trimEnd (c :: cs) = c :: trimEnd cs := by
  rw [trimEnd_cons, if_neg]
  simp [hc]

/-- A character that is no blank is written as it is. -/
lemma collapse_cons_of_neg (hc : isBlank c = false) (cs : List Char) :
    collapse (c :: cs) = c :: collapse cs := by
  rw [collapse, if_neg (by simp [hc])]

/-- A character that is no blank is kept in front of what is left. -/
lemma tidy_cons_of_neg (hc : isBlank c = false) (cs : List Char) :
    tidy (c :: cs) = c :: tidy cs := by
  rw [tidy, trimEnd_cons_of_neg hc, collapse_cons_of_neg hc, tidy]

/-! ## Both ends are left out independently -/

/-- The blanks at the end may be left out before those at the start. -/
lemma trimEnd_dropBlanks (cs : List Char) : trimEnd (dropBlanks cs) = dropBlanks (trimEnd cs) := by
  induction cs with
  | nil => rfl
  | cons c cs ih =>
    cases hc : isBlank c with
    | false => rw [dropBlanks_cons_of_neg hc, trimEnd_cons_of_neg hc, dropBlanks_cons_of_neg hc]
    | true =>
      rw [dropBlanks_cons_of_pos hc, trimEnd_cons, ih]
      split_ifs with h
      · rw [h.1]
      · rw [dropBlanks_cons_of_pos hc]

/-- Runs may be written as spaces before the blanks at the start are left out. -/
lemma collapse_dropBlanks (cs : List Char) :
    collapse (dropBlanks cs) = dropBlanks (collapse cs) := by
  induction cs with
  | nil => rfl
  | cons c cs ih =>
    cases hc : isBlank c with
    | false => rw [dropBlanks_cons_of_neg hc, collapse_cons_of_neg hc, dropBlanks_cons_of_neg hc]
    | true =>
      rw [dropBlanks_cons_of_pos hc, collapse, if_pos hc, ih]
      split_ifs
      · rfl
      · rw [dropBlanks_cons_of_pos (by decide)]

/-- Tidying goes with leaving out the blanks at the start. -/
lemma tidy_dropBlanks (cs : List Char) : tidy (dropBlanks cs) = dropBlanks (tidy cs) := by
  rw [tidy, trimEnd_dropBlanks, collapse_dropBlanks, tidy]

/-! ## Gaps -/

/-- What starts with a gap does so without the blanks at its end. -/
lemma gap_trimEnd {cs : List Char} (h : Gap cs) : Gap (trimEnd cs) := by
  cases cs with
  | nil => exact h
  | cons c cs =>
    rw [trimEnd_cons]
    split_ifs
    · exact fun x hx => absurd hx (by simp)
    · exact h

/-- What starts with a gap does so with spaces for its runs of blanks. -/
lemma gap_collapse {cs : List Char} (h : Gap cs) : Gap (collapse cs) := by
  induction cs with
  | nil => exact h
  | cons c cs ih =>
    have hc : isBlank c = true := h c rfl
    rw [collapse, if_pos hc]
    split_ifs with hnext
    · refine ih fun x hx => ?_
      rw [hx] at hnext
      exact hnext
    · rintro _ ⟨⟩
      decide

/-- **What starts with a gap** does so when it is tidied, and nothing else does. -/
lemma gap_tidy_iff {cs : List Char} : Gap (tidy cs) ↔ Gap cs := by
  constructor
  · intro h
    cases cs with
    | nil => exact fun x hx => absurd hx (by simp)
    | cons c cs =>
      cases hc : isBlank c with
      | false =>
        rw [tidy_cons_of_neg hc] at h
        rw [h c rfl] at hc
        exact absurd hc (by simp)
      | true =>
        rintro _ ⟨⟩
        exact hc
  · exact fun h => gap_collapse (gap_trimEnd h)

/-- What starts with no gap starts with a character that is no blank. -/
lemma exists_cons_of_not_gap {cs : List Char} (h : ¬ Gap cs) :
    ∃ c u, cs = c :: u ∧ isBlank c = false := by
  cases cs with
  | nil => exact absurd (fun x hx => absurd hx (by simp)) h
  | cons c u =>
    refine ⟨c, u, rfl, ?_⟩
    by_contra hc
    refine h ?_
    rintro _ ⟨⟩
    exact Bool.not_eq_false _ ▸ hc

/-! ## Characters that are no blanks -/

/-- A blank does not count. -/
lemma ink_cons_of_pos (hc : isBlank c = true) (cs : List Char) : ink (c :: cs) = ink cs :=
  List.countP_cons_of_neg (by simp [hc])

/-- A character that is no blank counts. -/
lemma ink_cons_of_neg (hc : isBlank c = false) (cs : List Char) : ink (c :: cs) = ink cs + 1 :=
  List.countP_cons_of_pos (by simp [hc])

/-- The characters of two texts that are no blanks count together. -/
lemma ink_append (t u : List Char) : ink (t ++ u) = ink t + ink u :=
  List.countP_append

/-- Blanks at the end do not count. -/
lemma ink_trimEnd (cs : List Char) : ink (trimEnd cs) = ink cs := by
  induction cs with
  | nil => rfl
  | cons c cs ih =>
    cases hc : isBlank c with
    | false => rw [trimEnd_cons_of_neg hc, ink_cons_of_neg hc, ink_cons_of_neg hc, ih]
    | true =>
      rw [trimEnd_cons, ink_cons_of_pos hc, ← ih]
      split_ifs with h
      · rw [h.1]
      · rw [ink_cons_of_pos hc]

/-- How runs of blanks are written does not count. -/
lemma ink_collapse (cs : List Char) : ink (collapse cs) = ink cs := by
  induction cs with
  | nil => rfl
  | cons c cs ih =>
    cases hc : isBlank c with
    | false => rw [collapse_cons_of_neg hc, ink_cons_of_neg hc, ink_cons_of_neg hc, ih]
    | true =>
      rw [collapse, if_pos hc, ink_cons_of_pos hc, ← ih]
      split_ifs
      · rfl
      · rw [ink_cons_of_pos (by decide)]

/-- Tidying keeps the number of characters that are no blanks. -/
lemma ink_tidy (cs : List Char) : ink (tidy cs) = ink cs := by
  rw [tidy, ink_collapse, ink_trimEnd]

/-- Blanks at the start do not count. -/
lemma ink_dropBlanks (cs : List Char) : ink (dropBlanks cs) = ink cs := by
  induction cs with
  | nil => rfl
  | cons c cs ih =>
    cases hc : isBlank c with
    | false => rw [dropBlanks_cons_of_neg hc]
    | true => rw [dropBlanks_cons_of_pos hc, ink_cons_of_pos hc, ih]

end Text

/-! ## Texts up to blanks -/

/-- **Texts that are the same up to blanks are read alike**, where no type name is written. -/
def Likeness.upToBlanks : Likeness where
  chars := Eq
  ahead t₁ t₂ := Text.tidy t₁ = Text.tidy t₂ ∧ NoTypeName t₁
  lower h := congrArg Char.toLower h
  settle := by
    rintro t₁ t₂ ⟨htidy, hmark⟩
    refine ⟨?_, hmark.of_suffix (List.dropWhile_suffix _)⟩
    rw [Text.tidy_dropBlanks, Text.tidy_dropBlanks, htidy]
  head := by
    rintro t₁ t₂ ⟨htidy, hmark⟩
    by_cases hgap : Gap t₁
    · refine .inl ⟨hgap, ?_⟩
      rwa [← Text.gap_tidy_iff, ← htidy, Text.gap_tidy_iff]
    · have hgap₂ : ¬ Gap t₂ := by rwa [← Text.gap_tidy_iff, ← htidy, Text.gap_tidy_iff]
      obtain ⟨c₁, u₁, rfl, h₁⟩ := Text.exists_cons_of_not_gap hgap
      obtain ⟨c₂, u₂, rfl, h₂⟩ := Text.exists_cons_of_not_gap hgap₂
      rw [Text.tidy_cons_of_neg h₁, Text.tidy_cons_of_neg h₂, List.cons.injEq] at htidy
      obtain ⟨hc, hu⟩ := htidy
      exact .inr ⟨c₁, c₂, u₁, u₂, rfl, rfl, h₁, hc, hu, hmark.of_suffix (List.suffix_cons _ _)⟩
  mark h := h.2.head_ne

/-- Every environment finds the same objects under the same names. -/
lemma Likeness.upToBlanks_finds (env : Env ω σ) : upToBlanks.Finds env fun _ => True where
  context := trivial
  member := by
    intro object n₁ n₂ _ hnames
    have hchars : n₁.toList = n₂.toList := List.forall₂_eq_eq_eq ▸ hnames
    rw [String.toList_inj.mp hchars]
  closed _ _ := trivial

/-- **The same verdict on two texts, up to blanks**: the same value; the same violation, equally
many characters other than blanks lying before its place; or the same other error. -/
inductive SameUpToBlanks (text₁ text₂ : List Char) :
    Except EvalError Float → Except EvalError Float → Prop
  | value (x : Float) : SameUpToBlanks text₁ text₂ (.ok x) (.ok x)
  | malformed {p₁ p₂ : Nat} (v : Violation) :
      Text.ink (text₁.take p₁) = Text.ink (text₂.take p₂) →
      SameUpToBlanks text₁ text₂ (.error (.malformed p₁ v)) (.error (.malformed p₂ v))
  | other {e : EvalError} : (∀ p v, e ≠ .malformed p v) →
      SameUpToBlanks text₁ text₂ (.error e) (.error e)

/-- What lies before a place and what lies behind it make up the text. -/
lemma Likeness.Leaves.ink_take {text rest : List Char} {p : Nat} (h : Leaves text p rest) :
    Text.ink (text.take p) + Text.ink rest = Text.ink text := by
  obtain ⟨before, rfl⟩ := h.suffix
  have hlength := h.length
  rw [List.length_append] at hlength
  obtain rfl : p = before.length := by omega
  rw [List.take_left, Text.ink_append]

/-- **Blanks only separate**: texts that become the same once they are trimmed and each run of
blanks in them is written as one space have the same verdict in every environment, and leave the
host in the same state. No mark may stand right before a parenthesis in the first text, and then
none does in the second.

**Proof sketch.** Trimming leaves out the blanks before the text, which do not matter, and those
behind it, where both texts end alike. So the texts are read alike, and their verdicts go together.
Behind the places where they are malformed equally many characters are no blanks, as in the whole
texts, so this is true before those places too. -/
theorem eval_up_to_blanks (env : Env ω σ) (e₁ e₂ : Evaluator) {text₁ text₂ : String}
    (hmark : NoTypeName text₁.toList)
    (htext : Text.collapse (Text.trimBlanks text₁.toList) =
      Text.collapse (Text.trimBlanks text₂.toList)) (host : σ) :
    SameUpToBlanks text₁.toList text₂.toList (e₁.eval env text₁ host).1
        (e₂.eval env text₂ host).1 ∧
      (e₁.eval env text₁ host).2.2 = (e₂.eval env text₂ host).2.2 := by
  have hahead : Likeness.upToBlanks.ahead (Text.dropBlanks text₁.toList)
      (Text.dropBlanks text₂.toList) := by
    rw [Text.trimBlanks_eq, Text.trimBlanks_eq] at htext
    exact ⟨htext, hmark.of_suffix (List.dropWhile_suffix _)⟩
  have hink : Text.ink text₁.toList = Text.ink text₂.toList := by
    rw [← Text.ink_dropBlanks, ← Text.ink_tidy, hahead.1, Text.ink_tidy, Text.ink_dropBlanks]
  obtain ⟨hverdict, hhost⟩ :=
    Likeness.eval_alike (Likeness.upToBlanks_finds env) e₁ e₂ hahead host
  refine ⟨?_, hhost⟩
  generalize (e₁.eval env text₁ host).1 = r₁ at hverdict ⊢
  generalize (e₂.eval env text₂ host).1 = r₂ at hverdict ⊢
  cases hverdict with
  | value x => exact .value x
  | other he => exact .other he
  | @malformed p₁ p₂ v₁ v₂ rest₁ rest₂ hstop₁ hstop₂ hrest hv =>
    have hrest : Text.ink rest₁ = Text.ink rest₂ := by
      rw [← Text.ink_tidy, hrest.1, Text.ink_tidy]
    have hplace : Text.ink (text₁.toList.take p₁) = Text.ink (text₂.toList.take p₂) := by
      have h₁ := hstop₁.ink_take
      have h₂ := hstop₂.ink_take
      omega
    obtain rfl : v₁ = v₂ := by
      cases hv with
      | refl => rfl
      | notOperator hc => rw [show _ = _ from hc]
    exact .malformed v₁ hplace

/-- On a group with an unmatched parenthesis behind it. -/
theorem eval_up_to_blanks_unmatched :
    NoTypeName "\t( $  )\n) ".toList ∧
      Text.collapse (Text.trimBlanks "\t( $  )\n) ".toList) =
        Text.collapse (Text.trimBlanks "( $ ) )".toList) ∧
      (Evaluator.blank.eval (.ofDocument .null 4) "\t( $  )\n) " 5).1 =
        .error (.malformed 8 .unmatchedClose) ∧
      SameUpToBlanks "\t( $  )\n) ".toList "( $ ) )".toList
        (Evaluator.blank.eval (.ofDocument .null 4) "\t( $  )\n) " 5).1
        (Evaluator.blank.eval (.ofDocument .null 4) "( $ ) )" 5).1 := by
  have hmark : NoTypeName "\t( $  )\n) ".toList := by decide
  have htext : Text.collapse (Text.trimBlanks "\t( $  )\n) ".toList) =
      Text.collapse (Text.trimBlanks "( $ ) )".toList) := by decide
  exact ⟨hmark, htext, rfl, (eval_up_to_blanks (.ofDocument .null 4) .blank .blank hmark htext 5).1⟩

end Formula
