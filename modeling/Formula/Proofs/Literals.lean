import Formula.Proofs.Steps

set_option relaxedAutoImplicit false
set_option autoImplicit false

/-!
# The extent of a literal

A literal is a run of digits and points. It is read as a whole when there is at most one point in
the run and the digits before the point have a value below `2 ^ 64`, however many of them there are;
otherwise reading stops at the first place where one of the two is violated. The digits behind the
point are never at fault.

## Main definitions

* `Formula.Literal.run`, `Formula.Literal.leading` — the run of a literal, and the digits with which
  it starts.
* `Formula.Literal.decimal` — the value of digits.
* `Formula.Literal.Fault` — what is wrong at a place of a text.

## Main results

* `Formula.Literal.decimal_eq_foldl` — digits are gathered with their value.
* `Formula.Literal.exists_shape` — every text starts with a literal, behind which no digit follows.
* `Formula.literal_extent` — how far a literal is read, and where reading it stops otherwise.
-/

namespace Formula

variable {ω σ : Type}

namespace Literal

/-! ## Runs and their values -/

/-- The characters of literals. -/
def isPart (c : Char) : Bool :=
  c.isDigit || c == '.'

/-- **The run of a literal**: the longest beginning of a text that is made of digits and points. -/
def run (text : List Char) : List Char :=
  text.takeWhile isPart

/-- The longest beginning of a text that is made of digits. -/
def leading (text : List Char) : List Char :=
  text.takeWhile Char.isDigit

/-- **The decimal value of digits**, the first of which weighs most. -/
def decimal (digits : List Char) : Nat :=
  Nat.ofDigits 10 (digits.reverse.map digit)

/-- **What is wrong at a place** of a text that starts with a literal: the digits from the start
reach `2 ^ 64` with the one at this place, or it is the second point of the run. -/
inductive Fault (text : List Char) : Nat → Violation → Prop where
  /-- A digit before the point with which the value does not fit any more. -/
  | tooLarge {i : Nat} : i < (leading text).length →
      decimal ((leading text).take i) < 2 ^ 64 → 2 ^ 64 ≤ decimal ((leading text).take (i + 1)) →
      Fault text i .numberTooLarge
  /-- A point behind another one. -/
  | secondPoint {i : Nat} : i < (run text).length → text[i]? = some '.' →
      (text.take i).count '.' = 1 → Fault text i .secondPoint

/-- A digit behind others adds to ten times their value. -/
lemma decimal_append (digits : List Char) (c : Char) :
    decimal (digits ++ [c]) = append (decimal digits) c := by
  simp [decimal, Nat.ofDigits_cons, append]
  omega

/-- **Digits are gathered with their value.** -/
lemma decimal_eq_foldl (digits : List Char) : decimal digits = digits.foldl append 0 := by
  induction digits using List.reverseRecOn with
  | nil => rfl
  | append_singleton digits c ih => rw [decimal_append, ih, List.foldl_append]; rfl

/-- More digits have no smaller value. -/
lemma decimal_take_le (digits : List Char) {i j : Nat} (h : i ≤ j) :
    decimal (digits.take i) ≤ decimal (digits.take j) := by
  obtain ⟨k, rfl⟩ := Nat.exists_eq_add_of_le h
  rw [List.take_add, decimal_eq_foldl, decimal_eq_foldl, List.foldl_append]
  exact le_foldl_append _ _

/-! ## Shapes -/

/-- **A text that starts with a literal**, behind whose digits no further one follows; a point may
follow only if the literal has one already. -/
structure Shape (text whole : List Char) (fraction : Option (List Char)) (rest : List Char) :
    Prop where
  /-- The text of the literal comes first. -/
  eq : text = Literal.text whole fraction ++ rest
  /-- Digits stand before its point. -/
  isDigit_whole : ∀ c ∈ whole, c.isDigit = true
  /-- Digits stand behind it. -/
  isDigit_fraction : ∀ c ∈ fraction.getD [], c.isDigit = true
  /-- No digit follows. -/
  isDigit_head : ∀ c ∈ rest.head?, c.isDigit = false
  /-- No first point follows. -/
  ne_point_head : fraction = none → ∀ c ∈ rest.head?, c ≠ '.'

/-- **Every text starts with a literal**, which may be empty. -/
lemma exists_shape (text : List Char) : ∃ whole fraction rest, Shape text whole fraction rest := by
  obtain ⟨whole, cs, rfl, hwhole, hcs⟩ := Text.exists_run Char.isDigit text
  by_cases hpoint : cs.head? = some '.'
  · obtain ⟨cs, rfl⟩ := List.head?_eq_some_iff.mp hpoint
    obtain ⟨fraction, rest, rfl, hfraction, hrest⟩ := Text.exists_run Char.isDigit cs
    refine ⟨whole, some fraction, rest, ?_, hwhole, hfraction, hrest, ?_⟩
    · rw [Literal.text, List.append_assoc, List.cons_append]
    · rintro ⟨⟩
  · exact ⟨whole, none, cs, rfl, hwhole, by simp, hcs, fun _ c hc heq => hpoint (heq ▸ hc)⟩

namespace Shape

variable {text whole rest : List Char} {fraction : Option (List Char)}
  (h : Shape text whole fraction rest)

include h

/-- The leading digits are those before the point. -/
lemma leading_eq : leading text = whole := by
  rw [leading, h.eq]
  cases fraction with
  | none => exact Text.takeWhile_append h.isDigit_whole h.isDigit_head
  | some digits =>
    rw [Literal.text, List.append_assoc]
    exact Text.takeWhile_append h.isDigit_whole (by rintro _ ⟨⟩; decide)

/-- The literal is made of digits and points. -/
lemma isPart_text : ∀ c ∈ Literal.text whole fraction, isPart c = true := by
  have hpart {digits : List Char} (hd : ∀ c ∈ digits, c.isDigit = true) :
      ∀ c ∈ digits, isPart c = true := fun c hc => by rw [isPart, hd c hc, Bool.true_or]
  cases fraction with
  | none => exact hpart h.isDigit_whole
  | some digits =>
    intro c hc
    rcases List.mem_append.mp hc with hc | hc
    · exact hpart h.isDigit_whole c hc
    · rcases List.mem_cons.mp hc with rfl | hc
      · decide
      · exact hpart h.isDigit_fraction c hc

/-- The literal has one point if it has a fraction, and none otherwise. -/
lemma count_text : (Literal.text whole fraction).count '.' = fraction.isSome.toNat := by
  have hzero {digits : List Char} (hd : ∀ c ∈ digits, c.isDigit = true) :
      digits.count '.' = 0 :=
    List.count_eq_zero.mpr fun hmem => ne_point (hd _ hmem) rfl
  cases fraction with
  | none => exact hzero h.isDigit_whole
  | some digits =>
    have hfraction : digits.count '.' = 0 := hzero h.isDigit_fraction
    rw [Literal.text, List.count_append, hzero h.isDigit_whole, List.count_cons_self, hfraction]
    rfl

/-- Without a point behind the literal the run is its text. -/
lemma run_eq (hpoint : rest.head? ≠ some '.') : run text = Literal.text whole fraction := by
  rw [run, h.eq]
  refine Text.takeWhile_append h.isPart_text fun c hc => ?_
  have hne : c ≠ '.' := fun heq => hpoint (heq ▸ hc)
  simp [isPart, h.isDigit_head c hc, hne]

/-- A point behind the literal belongs to the run, which has two of them, the first in the
literal. -/
lemma run_eq_of_point {cs : List Char} (hrest : rest = '.' :: cs) :
    fraction.isSome = true ∧ run text = Literal.text whole fraction ++ '.' :: run cs := by
  refine ⟨?_, ?_⟩
  · cases fraction with
    | none => exact absurd rfl (h.ne_point_head rfl '.' (by rw [hrest]; rfl))
    | some digits => rfl
  · rw [run, h.eq, hrest, List.takeWhile_append_of_pos h.isPart_text]
    rfl

/-- With at most one point in the run no point stands behind the literal. -/
lemma ne_point_of_count (hcount : (run text).count '.' ≤ 1) : rest.head? ≠ some '.' := by
  intro hhead
  obtain ⟨cs, hrest⟩ := List.head?_eq_some_iff.mp hhead
  obtain ⟨hsome, hrun⟩ := h.run_eq_of_point hrest
  rw [hrun, List.count_append, h.count_text, hsome, List.count_cons_self] at hcount
  simp at hcount

end Shape

/-! ## Faults -/

/-- **Digits whose value does not fit** are refused at the first of them with which it does not.

**Proof sketch.** Induction on the digits: the one at hand fits and the first that does not is
behind it, or it is the one. -/
lemma scanFrom_tooLarge {digits : List Char} (hd : ∀ c ∈ digits, c.isDigit = true) {n : Nat}
    (hn : n < bound) (hlarge : bound ≤ digits.foldl append n) (rest : List Char) (p : Nat) :
    ∃ i < digits.length, (digits.take i).foldl append n < bound ∧
      bound ≤ (digits.take (i + 1)).foldl append n ∧
      scanFrom false ⟨n, 0, 0⟩ p (digits ++ rest) =
        .refused .numberTooLarge ⟨p + i, (digits ++ rest).drop i⟩ := by
  induction digits generalizing n p with
  | nil => exact absurd hn (Nat.not_lt.mpr hlarge)
  | cons c digits ih =>
    have hc : c.isDigit = true := hd c List.mem_cons_self
    have hne : c ≠ '.' := ne_point hc
    by_cases hfits : append n c < bound
    · obtain ⟨i, hi, hbelow, habove, hscan⟩ :=
        ih (fun c hc => hd c (List.mem_cons_of_mem _ hc)) hfits hlarge (p + 1)
      refine ⟨i + 1, Nat.succ_lt_succ hi, hbelow, habove, ?_⟩
      simp only [List.cons_append, scanFrom, hne, hc, hfits, if_false, not_true_eq_false, if_true,
        Bool.false_eq_true, pushWhole, hscan, List.drop_succ_cons]
      rw [Nat.add_assoc, Nat.add_comm 1 i]
    · refine ⟨0, Nat.succ_pos _, hn, Nat.not_lt.mp hfits, ?_⟩
      simp only [List.cons_append, scanFrom, hne, hc, hfits, if_false, not_true_eq_false,
        Bool.false_eq_true]
      rfl

/-- No point stands among the leading digits. -/
lemma count_take_of_le {text : List Char} {j : Nat} (hj : j ≤ (leading text).length) :
    (text.take j).count '.' = 0 := by
  obtain ⟨rest, hrest⟩ : leading text <+: text := List.takeWhile_prefix _
  have hd : ∀ c ∈ leading text, c.isDigit = true := List.all_eq_true.mp List.all_takeWhile
  refine List.count_eq_zero.mpr fun hmem => ?_
  rw [← hrest, List.take_append_of_le_length hj] at hmem
  exact ne_point (hd _ (List.mem_of_mem_take hmem)) rfl

/-- A value that does not fit is at fault before anything else is. -/
lemma Fault.le_of_tooLarge {text : List Char} {i j : Nat} {v : Violation}
    (hi : Fault text i .numberTooLarge) (hj : Fault text j v) : i ≤ j := by
  cases hi with
  | tooLarge hlength hbelow _ =>
    by_contra hlt
    cases hj with
    | tooLarge _ _ habove =>
      have hle : decimal ((leading text).take (j + 1)) ≤ decimal ((leading text).take i) :=
        decimal_take_le _ (by omega)
      omega
    | secondPoint _ _ hone =>
      rw [count_take_of_le (by omega)] at hone
      exact absurd hone (by decide)

/-- If the value fits, nothing is at fault before the second point. -/
lemma Fault.le_of_secondPoint {text : List Char} {i j : Nat} {v : Violation}
    (hfits : decimal (leading text) < 2 ^ 64) (hi : Fault text i .secondPoint)
    (hj : Fault text j v) : i ≤ j := by
  cases hi with
  | secondPoint _ _ hone =>
    by_contra hlt
    cases hj with
    | tooLarge hlength _ habove =>
      have hle : decimal ((leading text).take (j + 1)) ≤ decimal (leading text) := by
        have h := decimal_take_le (leading text) (Nat.succ_le_of_lt hlength)
        rwa [List.take_length] at h
      omega
    | secondPoint _ hpoint htwo =>
      -- The point at the one place and the one before it both stand before the other place.
      have hnext : (text.take (j + 1)).count '.' = 2 := by
        rw [List.take_add_one, hpoint, List.count_append, htwo]
        rfl
      have hprefix : text.take (j + 1) <+: text.take i :=
        List.take_prefix_take_left (by omega)
      have hle := hprefix.sublist.count_le '.'
      omega

/-! ## Scans -/

/-- The digits of a fraction do not matter for the integer part. -/
lemma whole_ofDigits (whole fraction : List Char) :
    (ofDigits whole fraction).whole = decimal whole := by
  have hkeep (l : Literal) : (fraction.foldl pushFraction l).whole = l.whole := by
    induction fraction generalizing l with
    | nil => rfl
    | cons c fraction ih =>
      rw [List.foldl_cons, ih, pushFraction]
      split_ifs <;> rfl
  rw [ofDigits, hkeep, decimal_eq_foldl]

section

variable {text whole rest : List Char} {fraction : Option (List Char)}
  (h : Shape text whole fraction rest) (hstart : ∃ c ∈ text.head?, c.isDigit = true)
  (hfits : decimal (leading text) < 2 ^ 64)

include h hstart hfits

/-- The literal with which a text starts can be written if the text starts with a digit and the
value fits. -/
lemma Shape.wellFormed : WellFormed whole fraction := by
  refine ⟨?_, h.isDigit_whole, h.isDigit_fraction, ?_⟩
  · rintro rfl
    obtain ⟨c, hc, hdigit⟩ := hstart
    rw [h.eq] at hc
    cases fraction with
    | none =>
      rw [h.isDigit_head c hc] at hdigit
      exact absurd hdigit (by decide)
    | some digits =>
      obtain rfl : '.' = c := Option.some.inj hc
      exact absurd hdigit (by decide)
  · rw [h.leading_eq, decimal_eq_foldl] at hfits
    exact hfits

/-- **A scan ends behind the run** if there is at most one point in it and the value fits. -/
lemma Shape.scan_eq_done (hcount : (run text).count '.' ≤ 1) (p : Nat) :
    scan ⟨p, text⟩ = .done (ofDigits whole (fraction.getD []))
      ⟨p + (run text).length, text.drop (run text).length⟩ := by
  have hpoint : rest.head? ≠ some '.' := h.ne_point_of_count hcount
  have hscan := scan_text_append (h.wellFormed hstart hfits) rest p
  rw [scanFrom_stop h.isDigit_head (fun c hc heq => hpoint (heq ▸ hc)), ← h.eq] at hscan
  rw [hscan, h.run_eq hpoint]
  congr 2
  rw [h.eq, List.drop_left]

/-- **A scan stops at the second point** of the run if the value fits. -/
lemma Shape.scan_eq_secondPoint (hcount : ¬ (run text).count '.' ≤ 1) (p : Nat) :
    ∃ i, Fault text i .secondPoint ∧
      scan ⟨p, text⟩ = .refused .secondPoint ⟨p + i, text.drop i⟩ := by
  have hpoint : rest.head? = some '.' := by
    by_contra hpoint
    rw [h.run_eq hpoint, h.count_text] at hcount
    exact hcount (Bool.toNat_le _)
  obtain ⟨cs, hrest⟩ := List.head?_eq_some_iff.mp hpoint
  obtain ⟨hsome, hrun⟩ := h.run_eq_of_point hrest
  have heq : text = Literal.text whole fraction ++ '.' :: cs := hrest ▸ h.eq
  refine ⟨(Literal.text whole fraction).length, .secondPoint ?_ ?_ ?_, ?_⟩
  · rw [hrun]
    simp
  · rw [heq]
    simp
  · rw [heq, List.take_left, h.count_text, hsome]
    rfl
  · have hscan := scan_text_append (h.wellFormed hstart hfits) ('.' :: cs) p
    rw [hsome, ← heq] at hscan
    rw [hscan, heq, List.drop_left]
    simp [scanFrom]

end

/-- **A scan stops at the digit with which the value does not fit** any more. -/
lemma scan_eq_tooLarge {text : List Char} (hlarge : ¬ decimal (leading text) < 2 ^ 64) (p : Nat) :
    ∃ i, Fault text i .numberTooLarge ∧
      scan ⟨p, text⟩ = .refused .numberTooLarge ⟨p + i, text.drop i⟩ := by
  obtain ⟨rest, hrest⟩ : leading text <+: text := List.takeWhile_prefix _
  have hd : ∀ c ∈ leading text, c.isDigit = true := List.all_eq_true.mp List.all_takeWhile
  rw [decimal_eq_foldl, Nat.not_lt] at hlarge
  obtain ⟨i, hi, hbelow, habove, hscan⟩ := scanFrom_tooLarge hd (by decide) hlarge rest p
  rw [← decimal_eq_foldl] at hbelow habove
  rw [hrest] at hscan
  exact ⟨i, .tooLarge hi hbelow habove, hscan⟩

end Literal

open Literal Scanner

/-- **The extent of a literal.** In front of a text that starts with a digit, behind blanks or none,
an operand is the literal that the run of digits and points is, if there is at most one point in
the run and the value of the digits before it is below `2 ^ 64`; then all of the run is read and no
more, and the integer part is that value. Otherwise reading stops at the first fault of the text. No
digit behind a point is where reading stops.

**Proof sketch.** The text is that of a literal in front of something which is no digit, and a point
only if it is the second one. The digits before the first point are gathered with their value, which
only grows, so it fits at each of them if it fits at the last; the digits behind the first point are
gathered or left out, and the scan goes on in either case. -/
theorem literal_extent (env : Env ω σ) (levels : Nat) {s : Running σ} {text : List Char} {p d : Nat}
    {h : σ} (hs : s.settle = .facing p text d h) (hstart : ∃ c ∈ text.head?, c.isDigit = true) :
    ((run text).count '.' ≤ 1 ∧ decimal (leading text) < 2 ^ 64 →
      ∃ l : Literal, l.whole = decimal (leading text) ∧
        scan ⟨p, text⟩ = .done l ⟨p + (run text).length, text.drop (run text).length⟩ ∧
        operand env levels s =
          .ok l.toFloat (.facing (p + (run text).length) (text.drop (run text).length) d h)) ∧
    (¬ ((run text).count '.' ≤ 1 ∧ decimal (leading text) < 2 ^ 64) →
      ∃ i v, Fault text i v ∧ (∀ j w, Fault text j w → i ≤ j) ∧
        operand env levels s =
          .error (.malformed (p + i) v) (.facing (p + i) (text.drop i) d h)) ∧
    ∀ error t, operand env levels s = .error error t →
      ∃ i v, error = .malformed (p + i) v ∧ ('.' ∈ text.take i → text[i]? = some '.') := by
  have hoperand : operand env levels s = number (.facing p text d h) := by
    obtain ⟨c, hc, hdigit⟩ := hstart
    obtain ⟨cs, rfl⟩ := List.head?_eq_some_iff.mp hc
    rw [← operand_settle, hs, operand_digit _ _ _ _ _ _ hdigit]
  obtain ⟨whole, fraction, rest, hshape⟩ := exists_shape text
  have hdone (hok : (run text).count '.' ≤ 1 ∧ decimal (leading text) < 2 ^ 64) :
      ∃ l : Literal, l.whole = decimal (leading text) ∧
        scan ⟨p, text⟩ = .done l ⟨p + (run text).length, text.drop (run text).length⟩ ∧
        operand env levels s =
          .ok l.toFloat (.facing (p + (run text).length) (text.drop (run text).length) d h) := by
    have hscan := hshape.scan_eq_done hstart hok.2 hok.1 p
    refine ⟨_, ?_, hscan, ?_⟩
    · rw [whole_ofDigits, hshape.leading_eq]
    · rw [hoperand, number_apply, hscan]
  have hrefused (hnot : ¬ ((run text).count '.' ≤ 1 ∧ decimal (leading text) < 2 ^ 64)) :
      ∃ i v, Fault text i v ∧ (∀ j w, Fault text j w → i ≤ j) ∧
        operand env levels s =
          .error (.malformed (p + i) v) (.facing (p + i) (text.drop i) d h) := by
    by_cases hfits : decimal (leading text) < 2 ^ 64
    · obtain ⟨i, hi, hscan⟩ :=
        hshape.scan_eq_secondPoint hstart hfits (fun hcount => hnot ⟨hcount, hfits⟩) p
      refine ⟨i, _, hi, fun j w hj => hi.le_of_secondPoint hfits hj, ?_⟩
      rw [hoperand, number_apply, hscan]
    · obtain ⟨i, hi, hscan⟩ := scan_eq_tooLarge hfits p
      refine ⟨i, _, hi, fun j w hj => hi.le_of_tooLarge hj, ?_⟩
      rw [hoperand, number_apply, hscan]
  refine ⟨hdone, hrefused, fun error t hrun => ?_⟩
  by_cases hok : (run text).count '.' ≤ 1 ∧ decimal (leading text) < 2 ^ 64
  · obtain ⟨l, -, -, hvalue⟩ := hdone hok
    rw [hvalue] at hrun
    cases hrun
  · obtain ⟨i, v, hfault, -, herror⟩ := hrefused hok
    rw [herror] at hrun
    cases hrun
    refine ⟨i, v, rfl, fun hpoint => ?_⟩
    cases hfault with
    | tooLarge hlength _ _ =>
      have hzero := count_take_of_le (Nat.le_of_lt hlength)
      exact absurd hpoint (List.count_eq_zero.mp hzero)
    | secondPoint _ hat _ => exact hat

/-- On the last value that fits, behind a zero, and on the first one that does not. -/
theorem literal_extent_bounds :
    (∃ l : Literal, l.whole = 18446744073709551615 ∧
      operand (.ofDocument .null 0) 0 (.facing 0 " 018446744073709551615.5,".toList 0 5) =
        .ok l.toFloat (.facing 24 [','] 0 5)) ∧
      operand (.ofDocument .null 0) 0 (.facing 0 "18446744073709551616.".toList 0 5) =
        .error (.malformed 19 .numberTooLarge) (.facing 19 ['6', '.'] 0 5) := by
  constructor
  · have hs : Running.settle (.facing 0 " 018446744073709551615.5,".toList 0 (5 : Generator)) =
        .facing 1 "018446744073709551615.5,".toList 0 5 := rfl
    obtain ⟨l, hwhole, -, hrun⟩ := (literal_extent (.ofDocument .null 0) 0 hs
      ⟨'0', rfl, by decide⟩).1 ⟨by decide, by decide +kernel⟩
    exact ⟨l, hwhole, hrun⟩
  · have hs : Running.settle (.facing 0 "18446744073709551616.".toList 0 (5 : Generator)) =
        .facing 0 "18446744073709551616.".toList 0 5 := rfl
    obtain ⟨i, v, hfault, hfirst, hrun⟩ := (literal_extent (.ofDocument .null 0) 0 hs
      ⟨'1', rfl, by decide⟩).2.1 fun h => absurd h.2 (by decide +kernel)
    have hlarge : Fault "18446744073709551616.".toList 19 .numberTooLarge :=
      .tooLarge (by decide) (by decide +kernel) (by decide +kernel)
    obtain rfl : i = 19 := Nat.le_antisymm (hfirst _ _ hlarge) (hlarge.le_of_tooLarge hfault)
    cases hfault with
    | tooLarge => exact hrun
    | secondPoint _ hpoint _ => exact absurd hpoint (by decide)

end Formula
