import Formula.Proofs.Doubles
import Formula.Proofs.Fractions

set_option relaxedAutoImplicit false
set_option autoImplicit false

/-!
# What a fraction is divided by

The digits that are kept of a fraction are divided by a power of ten with as many zeros. It counts
the leading zeros of the fraction as well, so it may be too large for a double although the fraction
is not too small for one: behind 289 zeros there is room for nineteen digits only, and twenty may be
kept. The power is infinite then, and the literal is worth no more than its integer part.

## Main results

* `Formula.Literal.length_picked_le_iff` — when at most so many digits are kept.
* `Formula.Literal.zeros_lt_of_le_fractional` — how many zeros a fraction of some size starts with.
* `Formula.fraction_divided` — when a fraction is divided by an infinite power.
-/

namespace Formula

variable {σ : Type}

namespace Literal

/-! ## How many digits are kept -/

/-- A digit is readmitted only among those that are left. -/
lemma length_readmitted_le (kept dropped : List Char) :
    (readmitted kept dropped).toList.length ≤ dropped.length := by
  cases hr : readmitted kept dropped with
  | none => exact Nat.zero_le _
  | some c =>
    rw [readmitted] at hr
    split_ifs at hr
    exact List.length_pos_of_mem (List.mem_of_find?_eq_some hr)

/-- **When at most so many digits are kept**: if there are no more, or if the next one does not fit
and none is readmitted in its place.

**Proof sketch.** More digits are kept if a longer beginning fits, or if the longest that fits has
just so many digits and one is readmitted behind it. -/
lemma length_picked_le_iff {digits : List Char} (hd : ∀ c ∈ digits, c.isDigit = true) (k : Nat) :
    (picked digits).length ≤ k ↔ digits.length ≤ k ∨
      2 ^ 64 ≤ decimal (digits.take (k + 1)) ∧
        readmitted (digits.take k) (digits.drop k) = none := by
  obtain ⟨kept, hkept⟩ := exists_longestFitting digits
  obtain ⟨dropped, rfl⟩ := hkept.initial
  rw [hkept.length_picked fun c hc => hd c (List.mem_append_right _ hc)]
  constructor
  · intro hle
    by_cases hfew : (kept ++ dropped).length ≤ k
    · exact .inl hfew
    · refine .inr ⟨?_, ?_⟩
      · by_contra hfits
        have hlonger := hkept.longest _ (List.take_prefix _ _) (Nat.not_le.mp hfits)
        rw [List.length_take] at hlonger
        omega
      · by_contra hsome
        obtain ⟨c, hc⟩ := Option.ne_none_iff_exists'.mp hsome
        have hfits : decimal ((kept ++ dropped).take k) < 2 ^ 64 := by
          rw [decimal_of_readmitted hc]
          decide
        have hlonger := hkept.longest _ (List.take_prefix _ _) hfits
        rw [List.length_take] at hlonger
        obtain rfl : k = kept.length := by omega
        rw [List.take_left, List.drop_left] at hc
        rw [hc, Option.toList_some, List.length_singleton] at hle
        omega
  · rintro (hfew | ⟨hlarge, hnone⟩)
    · have hle := length_readmitted_le kept dropped
      rw [List.length_append] at hfew
      omega
    · have hshort : kept.length ≤ k := by
        by_contra hlonger
        rw [List.take_append_of_le_length (by omega)] at hlarge
        have hle := decimal_take_le kept (i := k + 1) (j := kept.length) (by omega)
        rw [List.take_length] at hle
        exact absurd hkept.fits (by omega)
      rcases Nat.lt_or_eq_of_le hshort with hlt | rfl
      · have hone : (readmitted kept dropped).toList.length ≤ 1 := Option.length_toList_le
        omega
      · rw [List.take_left, List.drop_left] at hnone
        rw [hnone, Option.toList_none, List.length_nil, Nat.add_zero]

/-! ## Leading zeros -/

/-- Zeros are worth nothing. -/
lemma decimal_takeWhile_zero (digits : List Char) :
    decimal (digits.takeWhile (· == '0')) = 0 := by
  induction digits with
  | nil => rfl
  | cons c digits ih =>
    by_cases hc : c = '0'
    · rw [List.takeWhile_cons_of_pos (by simpa using hc), decimal_cons, ih, hc]
      simp [digit]
    · rw [List.takeWhile_cons_of_neg (by simpa using hc)]
      rfl

/-- **A fraction of some size starts with few zeros.** -/
lemma zeros_lt_of_le_fractional {digits : List Char} (hd : ∀ c ∈ digits, c.isDigit = true) {m : Nat}
    (h : 1 / 10 ^ m ≤ fractional digits) : zeros digits < m := by
  have heq : fractional digits =
      fractional (digits.dropWhile (· == '0')) / 10 ^ zeros digits := by
    conv_lhs => rw [← List.takeWhile_append_dropWhile (p := (· == '0')) (l := digits)]
    rw [fractional_append, zeros, fractional, decimal_takeWhile_zero]
    simp
  have hrest : ∀ c ∈ digits.dropWhile (· == '0'), c.isDigit = true := fun c hc =>
    hd c ((List.dropWhile_sublist _).mem hc)
  have hlt : (1 : ℚ) / 10 ^ m < 1 / 10 ^ zeros digits := by
    refine h.trans_lt ?_
    rw [heq]
    gcongr
    exact fractional_lt_one hrest
  rw [one_div_lt_one_div (by positivity) (by positivity)] at hlt
  exact (pow_lt_pow_iff_right₀ (by norm_num)).mp hlt

/-! ## Division -/

/-- **A fraction that is divided by an infinite power** adds nothing to the integer part. -/
lemma toFloat_of_infinity {l : Literal} (hplaces : l.places ≠ 0)
    (hinfinity : Number.powerInt 10.0 l.places.toInt = 1.0 / 0.0) :
    l.toFloat = l.whole.toUInt64.toFloat := by
  rw [toFloat, if_neg hplaces, hinfinity, Number.toFloat_div_infinity, Number.toFloat_add_zero]

end Literal

open Literal

variable {s t : Running σ} {x : Float}

/-- **What a fraction is divided by.** If the fraction of an accepted literal is no less than the
307th negative power of ten, at most 326 of its digits are kept. At most 308 are kept if there are
no more of them, or if the next one does not fit and none is readmitted in its place; these are the
literals whose fraction is divided by a finite power of ten. The others are worth no more than their
integer part.

**Proof sketch.** At most 306 zeros stand in front of such a fraction, and at most twenty digits are
kept behind them. The powers of ten up to the 308th are finite and the next ones are infinite. -/
theorem fraction_divided (hstart : ∃ c ∈ s.cursor.rest.head?, c.isDigit = true)
    (hrun : Scanner.number s = .ok x t)
    (hnormal : 1 / 10 ^ 307 ≤ fractional (trailing s.cursor.rest)) :
    ∃ l : Literal, scan s.cursor = .done l t.cursor ∧ x = l.toFloat ∧
      0 ≤ l.places.toInt ∧ l.places.toInt ≤ 326 ∧
      (l.places.toInt ≤ 308 ↔ (trailing s.cursor.rest).length ≤ 308 ∨
        2 ^ 64 ≤ decimal ((trailing s.cursor.rest).take 309) ∧
          readmitted ((trailing s.cursor.rest).take 308) ((trailing s.cursor.rest).drop 308) =
            none) ∧
      (l.places.toInt ≤ 308 ↔ (Number.powerInt 10.0 l.places.toInt).isFinite = true) ∧
      (308 < l.places.toInt → x = l.whole.toUInt64.toFloat) := by
  obtain ⟨hd, hscan, hx⟩ := gathered_of_number hstart hrun
  have hzeros : zeros (trailing s.cursor.rest) < 307 := zeros_lt_of_le_fractional hd hnormal
  have hle : (picked (trailing s.cursor.rest)).length ≤ 326 := by
    have hpicked := length_picked_le hd
    omega
  have hplaces : (ofDigits (leading s.cursor.rest) (trailing s.cursor.rest)).places.toInt =
      (picked (trailing s.cursor.rest)).length := by
    rw [ofDigits_eq, (toInt_ofNat_eq_iff _).mpr (by omega)]
  have hinfinity (hmany : 308 < (picked (trailing s.cursor.rest)).length) :
      Number.powerInt 10.0 ((picked (trailing s.cursor.rest)).length : Int) = 1.0 / 0.0 := by
    rw [Number.powerInt_natCast, Number.power_ten_eq_infinity hmany hle]
  refine ⟨_, hscan, hx, ?_⟩
  rw [hplaces]
  refine ⟨Int.natCast_nonneg _, by exact_mod_cast hle, ?_, ⟨fun hfew => ?_, fun hfinite => ?_⟩,
    fun hmany => ?_⟩
  · exact_mod_cast length_picked_le_iff hd 308
  · rw [Number.powerInt_natCast]
    exact Number.isFinite_power_ten (by exact_mod_cast hfew)
  · by_contra hmany
    rw [hinfinity (by omega)] at hfinite
    exact absurd hfinite (by decide +kernel)
  · have hne : (ofDigits (leading s.cursor.rest) (trailing s.cursor.rest)).places ≠ 0 := by
      intro hzero
      rw [hzero, Int32.toInt_zero] at hplaces
      omega
    rw [hx, toFloat_of_infinity hne (hplaces ▸ hinfinity (by omega))]

/-- Behind 289 zeros nineteen digits are divided by the largest finite power of ten. -/
theorem fraction_divided_finite :
    ∃ l : Literal, scan (.start ("3.".toList ++ List.replicate 289 '0' ++ List.replicate 19 '9')) =
        .done l ⟨310, []⟩ ∧
      l.places.toInt ≤ 308 ∧ (Number.powerInt 10.0 l.places.toInt).isFinite = true := by
  have hscan : scan (.start ("3.".toList ++ List.replicate 289 '0' ++ List.replicate 19 '9')) =
      .done ⟨3, 9999999999999999999, 308⟩ ⟨310, []⟩ := by decide +kernel
  have hrun := number_of_scan hscan 0 (5 : Generator)
  have hnormal : 1 / 10 ^ 307 ≤ fractional
      (trailing ("3.".toList ++ List.replicate 289 '0' ++ List.replicate 19 '9')) := by
    decide +kernel
  obtain ⟨l, hscan, -, -, -, hfew, hfinite, -⟩ :=
    fraction_divided ⟨'3', rfl, by decide⟩ hrun hnormal
  have hplaces : l.places.toInt ≤ 308 := hfew.mpr (.inl (by decide +kernel))
  exact ⟨l, hscan, hplaces, hfinite.mp hplaces⟩

/-- **A fraction may be divided away**: the 291st negative power of ten, written with eighteen zeros
behind it, is divided by an infinite power, and the literal is worth zero. -/
theorem fraction_divided_away :
    ∃ l : Literal, scan (.start ("0.".toList ++ List.replicate 290 '0' ++
          '1' :: List.replicate 18 '0')) = .done l ⟨311, []⟩ ∧
      1 / 10 ^ 307 ≤ fractional (trailing ("0.".toList ++ List.replicate 290 '0' ++
        '1' :: List.replicate 18 '0')) ∧
      ¬ l.places.toInt ≤ 308 ∧ l.toFloat = 0.0 :=
  ⟨⟨0, 1000000000000000000, 309⟩, by decide +kernel, by decide +kernel, by decide,
    by decide +kernel⟩

end Formula
