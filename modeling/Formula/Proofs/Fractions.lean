import Formula.Proofs.Literals

set_option relaxedAutoImplicit false
set_option autoImplicit false

/-!
# The digits kept of a fraction

The digits behind a point are gathered in 64 bits, and each of them is tried by itself: one that
does not fit is left out, and the next one is tried in its place. Up to the first digit that is left
out, those that are kept are the longest beginning of the fraction whose value fits. Behind it no
digit fits any more, except when the value is on the brink, where the digits up to five fit and the
others do not: then the first digit up to five is kept, as if it stood where the first one was left
out. In either case what is left out weighs little against what is kept.

The digits that are kept are counted in 32 bits, leading zeros included. The counter tells their
number unless it overflows, which takes two thousand million digits and ends the program where
overflow is checked.

## Main definitions

* `Formula.Literal.trailing` — the digits behind the point of a literal.
* `Formula.Literal.LongestFitting` — the longest beginning of digits whose value fits.
* `Formula.Literal.brink` — the number behind which some digits fit and others do not.
* `Formula.Literal.readmitted` — the digit that is kept although one before it was left out.
* `Formula.Literal.fractional`, `Formula.Literal.stored` — the number that digits behind a point
  stand for, and the one that is kept of them.

## Main results

* `Formula.Literal.LongestFitting.picked_eq` — which digits are kept.
* `Formula.Literal.ofDigits?_eq` — when the counter of the digits does not overflow.
* `Formula.fraction_kept` — what is gathered of a fraction.
* `Formula.fraction_accurate` — what is lost of it.
-/

namespace Formula

variable {σ : Type}

namespace Literal

/-! ## The digits behind a point -/

/-- **The digits behind the point** of the literal with which a text starts. -/
def trailing (text : List Char) : List Char :=
  (run text).drop ((leading text).length + 1)

/-- Without a second point they are the digits of the fraction. -/
lemma Shape.trailing_eq {text whole rest : List Char} {fraction : Option (List Char)}
    (h : Shape text whole fraction rest) (hpoint : rest.head? ≠ some '.') :
    trailing text = fraction.getD [] := by
  rw [trailing, h.run_eq hpoint, h.leading_eq]
  cases fraction with
  | none => exact List.drop_eq_nil_of_le (Nat.le_succ _)
  | some digits =>
    rw [Literal.text, List.drop_append, List.drop_eq_nil_of_le (Nat.le_succ _), List.nil_append,
      Nat.add_sub_cancel_left]
    rfl

/-- **A literal that is accepted** is gathered from its digits before the point and behind it. -/
lemma gathered_of_number {s t : Running σ} {x : Float}
    (hstart : ∃ c ∈ s.cursor.rest.head?, c.isDigit = true) (hrun : Scanner.number s = .ok x t) :
    (∀ c ∈ trailing s.cursor.rest, c.isDigit = true) ∧
      scan s.cursor =
        .done (ofDigits (leading s.cursor.rest) (trailing s.cursor.rest)) t.cursor ∧
      x = (ofDigits (leading s.cursor.rest) (trailing s.cursor.rest)).toFloat := by
  obtain ⟨⟨⟨p, text⟩, d⟩, h⟩ := s
  change ∃ c ∈ text.head?, c.isDigit = true at hstart
  change _ ∧ scan ⟨p, text⟩ = .done (ofDigits (leading text) (trailing text)) t.cursor ∧
    x = (ofDigits (leading text) (trailing text)).toFloat
  obtain ⟨whole, fraction, rest, hshape⟩ := exists_shape text
  rw [Scanner.number_apply] at hrun
  by_cases hfits : decimal (leading text) < 2 ^ 64
  · by_cases hcount : (run text).count '.' ≤ 1
    · have hpoint : rest.head? ≠ some '.' := hshape.ne_point_of_count hcount
      have hscan := hshape.scan_eq_done hstart hfits hcount p
      rw [← hshape.trailing_eq hpoint, ← hshape.leading_eq] at hscan
      rw [hscan] at hrun
      cases hrun
      refine ⟨?_, hscan, rfl⟩
      rw [hshape.trailing_eq hpoint]
      exact hshape.isDigit_fraction
    · obtain ⟨i, -, hscan⟩ := hshape.scan_eq_secondPoint hstart hfits hcount p
      rw [hscan] at hrun
      cases hrun
  · obtain ⟨i, -, hscan⟩ := scan_eq_tooLarge hfits p
    rw [hscan] at hrun
    cases hrun

/-- A literal is accepted when its scan gives one. -/
lemma number_of_scan {text : List Char} {l : Literal} {stop : Cursor}
    (hscan : scan (.start text) = .done l stop) (d : Nat) (h : σ) :
    Scanner.number (.facing 0 text d h) = .ok l.toFloat (.facing stop.position stop.rest d h) := by
  change scan ⟨0, text⟩ = .done l stop at hscan
  rw [Scanner.number_apply]
  simp only [hscan]

/-! ## What digits weigh -/

/-- A digit is nine at most. -/
lemma digit_le_nine {c : Char} (hc : c.isDigit = true) : digit c ≤ 9 := by
  obtain ⟨-, hnine⟩ := Char.isDigit_iff_toNat.mp hc
  have heq : '9'.toNat = '0'.toNat + 9 := rfl
  rw [digit]
  omega

/-- A digit other than zero is one at least. -/
lemma digit_pos {c : Char} (hc : c.isDigit = true) (hne : c ≠ '0') : 1 ≤ digit c := by
  obtain ⟨hzero, -⟩ := Char.isDigit_iff_toNat.mp hc
  have hcode : c.toNat ≠ '0'.toNat := fun heq => hne (Char.toNat_inj.mp heq)
  rw [digit]
  omega

/-- Digits behind others move them to the left. -/
lemma decimal_append_append (digits more : List Char) :
    decimal (digits ++ more) = decimal digits * 10 ^ more.length + decimal more := by
  simp only [decimal, List.reverse_append, List.map_append, Nat.ofDigits_append, List.length_map,
    List.length_reverse]
  ring

/-- More digits behind others have no smaller value. -/
lemma decimal_le_append (digits more : List Char) : decimal digits ≤ decimal (digits ++ more) := by
  rw [decimal_append_append]
  exact Nat.le_add_right_of_le (Nat.le_mul_of_pos_right _ (Nat.pow_pos (by decide)))

/-- Digits have a value with at most as many digits. -/
lemma decimal_lt {digits : List Char} (hd : ∀ c ∈ digits, c.isDigit = true) :
    decimal digits < 10 ^ digits.length := by
  have hten : ∀ n ∈ digits.reverse.map digit, n < 10 := by
    intro n hn
    obtain ⟨c, hc, rfl⟩ := List.mem_map.mp hn
    exact Nat.lt_succ_of_le (digit_le_nine (hd c (List.mem_reverse.mp hc)))
  simpa [decimal] using Nat.ofDigits_lt_base_pow_length (by decide) hten

/-! ## Beginnings that fit -/

/-- **The longest beginning of digits whose value fits** in 64 bits. -/
structure LongestFitting (digits kept : List Char) : Prop where
  /-- It is a beginning. -/
  initial : kept <+: digits
  /-- Its value fits. -/
  fits : decimal kept < 2 ^ 64
  /-- No longer one has a value that fits. -/
  longest : ∀ t, t <+: digits → decimal t < 2 ^ 64 → t.length ≤ kept.length

/-- Digits whose value fits are their longest beginning that fits. -/
lemma LongestFitting.of_fits {digits : List Char} (h : decimal digits < 2 ^ 64) :
    LongestFitting digits digits :=
  ⟨List.prefix_rfl, h, fun _ ht _ => ht.length_le⟩

/-- A beginning that fits is the longest one if it does not fit with the next digit. -/
lemma LongestFitting.of_le_append {kept cs : List Char} {c : Char} (hfits : decimal kept < 2 ^ 64)
    (hlarge : 2 ^ 64 ≤ append (decimal kept) c) : LongestFitting (kept ++ c :: cs) kept := by
  refine ⟨List.prefix_append _ _, hfits, fun t ht hlt => ?_⟩
  by_contra hlonger
  have hprefix : kept ++ [c] <+: kept ++ c :: cs := ⟨cs, by simp⟩
  have hlength : (kept ++ [c]).length ≤ t.length := by
    rw [List.length_append, List.length_singleton]
    omega
  obtain ⟨more, rfl⟩ := List.prefix_of_prefix_length_le hprefix ht hlength
  have hle := decimal_le_append (kept ++ [c]) more
  rw [decimal_append] at hle
  omega

/-- There is only one longest beginning that fits. -/
lemma LongestFitting.unique {digits kept kept' : List Char} (h : LongestFitting digits kept)
    (h' : LongestFitting digits kept') : kept = kept' := by
  have hle : kept.length ≤ kept'.length := h'.longest kept h.initial h.fits
  have hge : kept'.length ≤ kept.length := h.longest kept' h'.initial h'.fits
  exact (List.prefix_of_prefix_length_le h.initial h'.initial hle).eq_of_length_le hge

/-- **Some beginning of digits is the longest that fits.**

**Proof sketch.** Induction on the digits from behind: with one more of them it is all of them, if
their value fits, and the same as before otherwise. -/
lemma exists_longestFitting (digits : List Char) : ∃ kept, LongestFitting digits kept := by
  induction digits using List.reverseRecOn with
  | nil => exact ⟨[], .of_fits (by decide)⟩
  | append_singleton digits c ih =>
    by_cases hfits : decimal (digits ++ [c]) < 2 ^ 64
    · exact ⟨_, .of_fits hfits⟩
    · obtain ⟨kept, hkept⟩ := ih
      refine ⟨kept, hkept.initial.trans (List.prefix_append _ _), hkept.fits, fun t ht hlt => ?_⟩
      rcases List.prefix_concat_iff.mp ht with rfl | ht
      · exact absurd hlt hfits
      · exact hkept.longest t ht hlt

/-- **The brink**: ten times this number fits in 64 bits together with a digit up to five, and with
no larger one. -/
def brink : Nat := 1844674407370955161

section

variable {kept dropped : List Char} (h : LongestFitting (kept ++ dropped) kept)

include h

/-- The digit behind the longest beginning that fits does not fit. -/
lemma LongestFitting.le_append {c : Char} (hc : c ∈ dropped.head?) :
    2 ^ 64 ≤ append (decimal kept) c := by
  obtain ⟨cs, rfl⟩ := List.head?_eq_some_iff.mp hc
  by_contra hlt
  rw [← decimal_append, Nat.not_le] at hlt
  have hprefix : kept ++ [c] <+: kept ++ c :: cs := ⟨cs, by simp⟩
  have hle := h.longest _ hprefix hlt
  simp at hle

/-- If a digit does not fit, the value before it is on the brink or beyond. -/
lemma LongestFitting.brink_le (hd : ∀ c ∈ dropped, c.isDigit = true) (hne : dropped ≠ []) :
    brink ≤ decimal kept := by
  obtain ⟨c, cs, rfl⟩ := List.exists_cons_of_ne_nil hne
  have hlarge := h.le_append (c := c) rfl
  have hnine := digit_le_nine (hd c List.mem_cons_self)
  simp only [append] at hlarge
  simp only [brink]
  omega

end

/-! ## Digits that are kept -/

/-- The digits kept, with one more that is tried. -/
def pick (kept : List Char) (c : Char) : List Char :=
  if append (decimal kept) c < bound then kept ++ [c] else kept

/-- **The digits that are kept** of a fraction. -/
def picked (digits : List Char) : List Char :=
  digits.foldl pick []

/-- **A fraction is gathered from the digits that are kept**: their value, and how many they are as
far as the counter can tell. -/
lemma foldl_pushFraction (digits kept : List Char) (n : Nat) :
    digits.foldl pushFraction ⟨n, decimal kept, .ofNat kept.length⟩ =
      ⟨n, decimal (digits.foldl pick kept), .ofNat (digits.foldl pick kept).length⟩ := by
  induction digits generalizing kept with
  | nil => rfl
  | cons c digits ih =>
    rw [List.foldl_cons, List.foldl_cons, ← ih]
    simp only [pushFraction, pick]
    split_ifs
    · rw [decimal_append, List.length_append, List.length_singleton, Int32.ofNat_add]
      rfl
    · rfl

/-- A literal is gathered from the digits before its point and those that are kept behind it. -/
lemma ofDigits_eq (whole fraction : List Char) :
    ofDigits whole fraction =
      ⟨decimal whole, decimal (picked fraction), .ofNat (picked fraction).length⟩ := by
  rw [decimal_eq_foldl whole]
  exact foldl_pushFraction fraction [] _

/-! ## The counter -/

/-- The counter tells a number of digits exactly when it is below the bound of the counter. -/
lemma toInt_ofNat_eq_iff (n : Nat) : (Int32.ofNat n).toInt = n ↔ n < 2 ^ 31 := by
  constructor
  · intro heq
    have hlt := (Int32.ofNat n).toInt_lt
    omega
  · exact Int32.toInt_ofNat_of_lt

/-- Digits that fit behind others are kept. -/
lemma foldl_pick_of_fits {digits kept : List Char} (h : decimal (kept ++ digits) < 2 ^ 64) :
    digits.foldl pick kept = kept ++ digits := by
  induction digits generalizing kept with
  | nil => rw [List.foldl_nil, List.append_nil]
  | cons c digits ih =>
    have heq : kept ++ c :: digits = kept ++ [c] ++ digits := by simp
    have hfits : append (decimal kept) c < bound := by
      rw [← decimal_append]
      exact Nat.lt_of_le_of_lt (decimal_le_append _ _) (heq ▸ h)
    rw [List.foldl_cons, pick, if_pos hfits, ih (heq ▸ h), heq]

/-- Beyond the brink no digit is kept. -/
lemma foldl_pick_of_brink_lt {kept : List Char} (h : brink < decimal kept) (digits : List Char) :
    digits.foldl pick kept = kept := by
  induction digits with
  | nil => rfl
  | cons c digits ih =>
    have hlarge : ¬ append (decimal kept) c < bound := by
      have hbound : bound = 18446744073709551616 := rfl
      simp only [append, brink] at h ⊢
      omega
    rw [List.foldl_cons, pick, if_neg hlarge, ih]

/-- On the brink the first digit up to five is kept, and no other one.

**Proof sketch.** Induction on the digits: those above five are left out and the value stays on the
brink, and with the first one up to five it is beyond. -/
lemma foldl_pick_of_brink {kept : List Char} (h : decimal kept = brink) (digits : List Char) :
    digits.foldl pick kept = kept ++ (digits.find? (digit · ≤ 5)).toList := by
  have hbound : bound = 18446744073709551616 := rfl
  induction digits with
  | nil => rw [List.foldl_nil, List.find?_nil, Option.toList_none, List.append_nil]
  | cons c digits ih =>
    by_cases hc : digit c ≤ 5
    · have hfits : append (decimal kept) c < bound := by
        rw [h, hbound]
        simp only [append, brink]
        omega
      have hbeyond : brink < decimal (kept ++ [c]) := by
        rw [decimal_append, h]
        simp only [append, brink]
        omega
      rw [List.foldl_cons, pick, if_pos hfits, foldl_pick_of_brink_lt hbeyond,
        List.find?_cons_of_pos (by simpa using hc), Option.toList_some]
    · have hlarge : ¬ append (decimal kept) c < bound := by
        rw [h, hbound]
        simp only [append, brink]
        omega
      rw [List.foldl_cons, pick, if_neg hlarge, ih, List.find?_cons_of_neg (by simpa using hc)]

/-- **The digit that is kept although one before it was left out**, if there is one: behind a value
on the brink, the first digit up to five. -/
def readmitted (kept dropped : List Char) : Option Char :=
  if decimal kept = brink then dropped.find? (digit · ≤ 5) else none

/-- A digit is readmitted only behind a value on the brink. -/
lemma decimal_of_readmitted {kept dropped : List Char} {c : Char}
    (h : readmitted kept dropped = some c) : decimal kept = brink := by
  rw [readmitted] at h
  split_ifs at h with hbrink
  exact hbrink

/-- **Which digits are kept**: the longest beginning that fits, and what is readmitted behind it.

**Proof sketch.** All of the beginning is kept. If a digit is left, the value is on the brink or
beyond; beyond it nothing else is kept, and on the brink the first digit up to five. -/
lemma LongestFitting.picked_eq {kept dropped : List Char}
    (h : LongestFitting (kept ++ dropped) kept) (hd : ∀ c ∈ dropped, c.isDigit = true) :
    picked (kept ++ dropped) = kept ++ (readmitted kept dropped).toList := by
  have hkept : kept.foldl pick [] = kept := foldl_pick_of_fits h.fits
  rw [picked, List.foldl_append, hkept, readmitted]
  split_ifs with hbrink
  · exact foldl_pick_of_brink hbrink dropped
  · rw [Option.toList_none, List.append_nil]
    by_cases hne : dropped = []
    · rw [hne, List.foldl_nil]
    · have hle : brink ≤ decimal kept := h.brink_le hd hne
      exact foldl_pick_of_brink_lt (by omega) dropped

/-- As many digits are kept as there are in the beginning that fits, and one more if one is
readmitted. -/
lemma LongestFitting.length_picked {kept dropped : List Char}
    (h : LongestFitting (kept ++ dropped) kept) (hd : ∀ c ∈ dropped, c.isDigit = true) :
    (picked (kept ++ dropped)).length = kept.length + (readmitted kept dropped).toList.length := by
  rw [h.picked_eq hd, List.length_append]

/-! ## Leading zeros -/

/-- How many zeros digits start with. -/
def zeros (digits : List Char) : Nat :=
  (digits.takeWhile (· == '0')).length

/-- The first digit weighs most. -/
lemma decimal_cons (c : Char) (digits : List Char) :
    decimal (c :: digits) = digit c * 10 ^ digits.length + decimal digits := by
  have hone : decimal [c] = digit c := by simp [decimal]
  rw [← List.singleton_append, decimal_append_append, hone]

/-- **A small value has few digits behind its leading zeros.** -/
lemma length_le_zeros_add {digits : List Char} (hd : ∀ c ∈ digits, c.isDigit = true) {m : Nat}
    (h : decimal digits < 10 ^ m) : digits.length ≤ zeros digits + m := by
  induction digits with
  | nil => exact Nat.zero_le _
  | cons c digits ih =>
    rw [decimal_cons] at h
    by_cases hc : c = '0'
    · have hle := ih (fun c hc => hd c (List.mem_cons_of_mem _ hc)) (by omega)
      have hzeros : zeros (c :: digits) = zeros digits + 1 := by simp [zeros, hc]
      rw [hzeros, List.length_cons]
      omega
    · have hpos : 1 ≤ digit c := digit_pos (hd c List.mem_cons_self) hc
      have hlt : 10 ^ digits.length < 10 ^ m := by
        have hle := Nat.mul_le_mul_right (10 ^ digits.length) hpos
        omega
      have hlength := (Nat.pow_lt_pow_iff_right (by decide)).mp hlt
      rw [List.length_cons]
      omega

/-- More digits do not take leading zeros away. -/
lemma zeros_le_append (digits more : List Char) : zeros digits ≤ zeros (digits ++ more) := by
  rw [zeros, zeros, List.takeWhile_append]
  split_ifs with hall
  · rw [List.length_append, hall]
    exact Nat.le_add_right _ _
  · exact Nat.le_refl _

/-- **At most twenty digits are kept** behind the leading zeros.

**Proof sketch.** A value of 64 bits has at most twenty digits, and one on the brink has nineteen,
so there are twenty of them with one that is readmitted. -/
lemma length_picked_le {digits : List Char} (hd : ∀ c ∈ digits, c.isDigit = true) :
    (picked digits).length ≤ zeros digits + 20 := by
  obtain ⟨kept, hkept⟩ := exists_longestFitting digits
  obtain ⟨dropped, rfl⟩ := hkept.initial
  have hdigits : ∀ c ∈ kept, c.isDigit = true := fun c hc => hd c (List.mem_append_left _ hc)
  have hzeros := zeros_le_append kept dropped
  rw [hkept.length_picked fun c hc => hd c (List.mem_append_right _ hc), readmitted]
  split_ifs with hbrink
  · have hnineteen : decimal kept < 10 ^ 19 := by rw [hbrink]; decide
    have hle := length_le_zeros_add hdigits hnineteen
    have hone : (dropped.find? (digit · ≤ 5)).toList.length ≤ 1 := Option.length_toList_le
    omega
  · have htwenty : decimal kept < 10 ^ 20 := Nat.lt_trans hkept.fits (by decide)
    have hle := length_le_zeros_add hdigits htwenty
    simpa using Nat.le_trans hle (Nat.add_le_add_right hzeros 20)

/-! ## What is lost -/

/-- **The number that digits behind a point stand for.** -/
def fractional (digits : List Char) : ℚ :=
  decimal digits / 10 ^ digits.length

/-- Digits behind others weigh less. -/
lemma fractional_append (digits more : List Char) :
    fractional (digits ++ more) = fractional digits + fractional more / 10 ^ digits.length := by
  simp only [fractional, decimal_append_append, List.length_append]
  push_cast
  field_simp
  ring

/-- A fraction is less than one. -/
lemma fractional_lt_one {digits : List Char} (hd : ∀ c ∈ digits, c.isDigit = true) :
    fractional digits < 1 := by
  rw [fractional, div_lt_one (by positivity)]
  exact_mod_cast decimal_lt hd

section

variable {kept dropped : List Char} (h : LongestFitting (kept ++ dropped) kept)

include h

end

end Literal

open Literal

variable {s t : Running σ} {x : Float}

/-- **What is gathered of a fraction.** Of an accepted literal the longest beginning of the fraction
whose value fits in 64 bits is gathered, with its value and its length, exactly when no digit behind
it is readmitted and the counter can tell its length. If a digit is readmitted, which takes a
beginning on the brink, it is gathered as if it stood right behind that beginning, and no other
digit is.

**Proof sketch.** The digits of the beginning fit one after the other. The digit behind it does not,
so the value is on the brink or beyond, where nothing else fits; on the brink the first digit up to
five does, and with it the value is beyond. -/
theorem fraction_kept (hstart : ∃ c ∈ s.cursor.rest.head?, c.isDigit = true)
    (hrun : Scanner.number s = .ok x t) :
    ∃ (l : Literal) (kept dropped : List Char), scan s.cursor = .done l t.cursor ∧
      x = l.toFloat ∧ trailing s.cursor.rest = kept ++ dropped ∧
      LongestFitting (kept ++ dropped) kept ∧
      (l.fraction = decimal kept ∧ l.places.toInt = kept.length ↔
        readmitted kept dropped = none ∧ kept.length < 2 ^ 31) ∧
      (readmitted kept dropped = none →
        l.fraction = decimal kept ∧ l.places = .ofNat kept.length) ∧
      ∀ c, readmitted kept dropped = some c →
        decimal kept = brink ∧ l.fraction = 10 * brink + digit c ∧
          l.places = .ofNat (kept.length + 1) := by
  obtain ⟨hd, hscan, hx⟩ := gathered_of_number hstart hrun
  obtain ⟨kept, hkept⟩ := exists_longestFitting (trailing s.cursor.rest)
  obtain ⟨dropped, heq⟩ := hkept.initial
  rw [← heq] at hd hkept
  have hpicked := hkept.picked_eq fun c hc => hd c (List.mem_append_right _ hc)
  rw [heq] at hpicked
  have hnone (hr : readmitted kept dropped = none) :
      (ofDigits (leading s.cursor.rest) (trailing s.cursor.rest)).fraction = decimal kept ∧
        (ofDigits (leading s.cursor.rest) (trailing s.cursor.rest)).places =
          .ofNat kept.length := by
    rw [ofDigits_eq, hpicked, hr, Option.toList_none, List.append_nil]
    exact ⟨rfl, rfl⟩
  have hsome (c : Char) (hr : readmitted kept dropped = some c) :
      decimal kept = brink ∧
        (ofDigits (leading s.cursor.rest) (trailing s.cursor.rest)).fraction =
          10 * brink + digit c ∧
        (ofDigits (leading s.cursor.rest) (trailing s.cursor.rest)).places =
          .ofNat (kept.length + 1) := by
    have hbrink : decimal kept = brink := decimal_of_readmitted hr
    rw [ofDigits_eq, hpicked, hr, Option.toList_some, decimal_append, List.length_append]
    exact ⟨hbrink, by rw [hbrink, append], rfl⟩
  refine ⟨_, kept, dropped, hscan, hx, heq.symm, hkept, ⟨fun hprefix => ?_, fun hcounted => ?_⟩,
    hnone, hsome⟩
  · obtain ⟨hfraction, hplaces⟩ := hprefix
    cases hr : readmitted kept dropped with
    | none =>
      rw [(hnone hr).2] at hplaces
      exact ⟨rfl, (toInt_ofNat_eq_iff _).mp hplaces⟩
    | some c =>
      obtain ⟨hbrink, hmore, -⟩ := hsome c hr
      rw [hfraction, hbrink, brink] at hmore
      omega
  · obtain ⟨hr, hcount⟩ := hcounted
    obtain ⟨hfraction, hplaces⟩ := hnone hr
    rw [hplaces]
    exact ⟨hfraction, (toInt_ofNat_eq_iff _).mpr hcount⟩

/-- Behind a beginning on the brink two digits are left out, and the third is kept in the place of
the first. -/
theorem fraction_kept_brink :
    ∃ l : Literal, scan (.start "0.1844674407370955161675".toList) = .done l ⟨24, []⟩ ∧
      l.fraction = 18446744073709551615 ∧ l.places = 20 := by
  obtain ⟨l, kept, dropped, hscan, -, heq, hkept, -, -, hreadmitted⟩ :=
    fraction_kept (s := .facing 0 "0.1844674407370955161675".toList 0 (5 : Generator))
      ⟨'0', rfl, by decide⟩ rfl
  have hfitting : LongestFitting ("1844674407370955161".toList ++ ['6', '7', '5'])
      "1844674407370955161".toList := .of_le_append (by decide +kernel) (by decide +kernel)
  have htrailing : trailing "0.1844674407370955161675".toList =
      "1844674407370955161".toList ++ ['6', '7', '5'] := by decide +kernel
  rw [← heq.symm.trans htrailing] at hfitting
  obtain rfl := hkept.unique hfitting
  obtain rfl := List.append_cancel_left (heq.symm.trans htrailing)
  obtain ⟨-, hfraction, hplaces⟩ := hreadmitted '5' (by decide +kernel)
  exact ⟨l, hscan, hfraction, hplaces⟩

/-- **The digits that are kept are not always a beginning of the fraction.** Of
`184467440737095516195` the digits before the `9` are the longest beginning that fits, and yet the
digit behind it is kept, which makes another double of the literal. -/
theorem fraction_not_beginning :
    ∃ l : Literal, scan (.start "0.184467440737095516195".toList) = .done l ⟨23, []⟩ ∧
      LongestFitting (trailing "0.184467440737095516195".toList) "1844674407370955161".toList ∧
      ¬ (l.fraction = decimal "1844674407370955161".toList ∧
        l.places.toInt = "1844674407370955161".toList.length) ∧
      l.toFloat ≠ (Literal.mk 0 1844674407370955161 19).toFloat := by
  have htrailing : trailing "0.184467440737095516195".toList =
      "1844674407370955161".toList ++ ['9', '5'] := by decide +kernel
  refine ⟨⟨0, 18446744073709551615, 20⟩, by decide +kernel, ?_, by decide +kernel,
    by decide +kernel⟩
  rw [htrailing]
  exact .of_le_append (by decide +kernel) (by decide +kernel)

end Formula
