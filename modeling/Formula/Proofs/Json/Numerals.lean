import Formula.Proofs.Json.Readers

set_option relaxedAutoImplicit false
set_option autoImplicit false

/-!
# Reading numbers

The digits before the point are gathered as long as they fit in 64 bits. If all of them do and
nothing else belongs to the number, it is read as their decimal value, no matter how large. A point,
a power of ten or a digit that does not fit makes a double of it, and so it is told apart from a
natural number even when it has the same value. A number with a minus sign is never read as a
natural number, also when it is zero.

## Main definitions

* `Formula.Json.Reader.IsReal` — numbers that are kept as doubles.
* `Formula.Json.Reader.FollowsNumber` — the texts that do not continue a number.

## Main results

* `Formula.Json.Reader.numeral_takes` — a natural number of 64 bits is read as its value.
* `Formula.Json.Reader.numeral_yields_real` — any other number without a sign is read as a double.
* `Formula.Json.Reader.numeral_negative` — a number with a sign is not read as a natural number.
-/

namespace Formula.Json

open Grammar

/-! ## Gathering digits -/

/-- **All digits are gathered if their value fits.** -/
lemma gather_of_lt {bound n : Nat} {cs : List Char} (h : cs.foldl Literal.append n < bound) :
    gather bound n cs = (cs.foldl Literal.append n, []) := by
  induction cs generalizing n with
  | nil => rfl
  | cons c cs ih =>
    have hfits : 10 * n + (c.toNat - '0'.toNat) < bound :=
      (Literal.le_foldl_append cs (Literal.append n c)).trans_lt h
    simp only [gather, if_pos hfits]
    exact ih h

/-- **A digit is left over if their value does not fit.** -/
lemma left_of_gather {bound n : Nat} {cs : List Char} (hn : n < bound)
    (h : ¬ cs.foldl Literal.append n < bound) : (gather bound n cs).2 ≠ [] := by
  induction cs generalizing n with
  | nil => exact absurd hn h
  | cons c cs ih =>
    simp only [gather]
    split_ifs with hfits
    · exact ih hfits h
    · exact List.cons_ne_nil c cs

namespace Reader

variable {cs : List Char}

/-! ## Numbers that become doubles -/

/-- **The numbers that are kept as doubles.** -/
def IsReal (x : Json.Number) : Prop :=
  ∃ y, x = .real y

/-- A significand with a power of ten is a double. -/
lemma scaled_yields (negative : Bool) (significand : Nat) (exponent : Int) :
    Yields (scaled negative significand exponent) cs IsReal := by
  unfold scaled
  cases scale significand exponent with
  | some x => exact .pure ⟨_, rfl⟩
  | none => exact (failHere_fails _).yields

/-- A number with a power of ten is a double. -/
lemma power_yields (negative : Bool) (significand : Nat) (start : Int) :
    Yields (power negative significand start) cs IsReal := by
  refine .behind fun _ _ => .behind fun sign _ => .optional fun _ => .behind fun ahead _ => ?_
  cases ahead with
  | none => exact (fail_fails _).yields
  | some c =>
    dsimp only
    split
    · exact (fail_fails _).yields
    · refine .behind fun run _ => ?_
      split
      · exact .behind fun _ _ => scaled_yields _ _ _
      · split
        · exact .behind fun _ _ => (failHere_fails _).yields
        · exact .behind fun _ _ => .pure ⟨_, rfl⟩

/-- A number with a fraction is a double. -/
lemma fraction_yields (negative : Bool) (significand : Nat) (exponent : Int) :
    Yields (fraction negative significand exponent) cs IsReal := by
  refine .behind fun _ _ => .behind fun run _ => ?_
  dsimp only
  split_ifs
  · refine .behind fun ahead _ => ?_
    cases ahead <;> exact (fail_fails _).yields
  · refine .behind fun _ _ => .behind fun ahead _ => ?_
    cases ahead with
    | none => exact scaled_yields _ _ _
    | some c =>
      dsimp only
      split_ifs
      · exact power_yields _ _ _
      · exact scaled_yields _ _ _

/-! ## What stands behind the digits before the point -/

/-- **The texts that do not continue a number.** -/
def FollowsNumber (rest : List Char) : Prop :=
  ∀ c ∈ rest.head?, c.isDigit = false ∧ c ≠ '.' ∧ c ≠ 'e' ∧ c ≠ 'E'

/-- Behind its last digit a number is what has been gathered, or a double if a digit is left
over. -/
lemma afterInteger_end {rest : List Char} (hrest : FollowsNumber rest) (negative : Bool)
    (significand dropped : Nat) :
    Continues (afterInteger negative significand dropped) rest
      (if dropped = 0 then pure (integer negative significand)
        else scaled negative significand dropped) rest := by
  refine (peek_takes rest).continues.trans fun place => ⟨place, ?_⟩
  cases rest with
  | nil => rfl
  | cons c rest =>
    obtain ⟨-, hpoint, hlower, hupper⟩ := hrest c rfl
    have hmark : ¬ (c = 'e' ∨ c = 'E') := fun h => h.elim hlower hupper
    simp only [List.head?_cons, if_neg hmark]

/-- **A fraction or a power of ten makes a double of a number.** -/
lemma afterInteger_yields {x : Numeral} (hx : x.WellFormed)
    (hparts : ¬ (x.fraction = none ∧ x.power = none)) (negative : Bool)
    (significand dropped : Nat) (rest : List Char) :
    Yields (afterInteger negative significand dropped) (x.behindWhole ++ rest) IsReal := by
  refine (peek_takes _).yields ?_
  obtain ⟨sign, whole, fraction, power⟩ := x
  cases fraction with
  | some digits => exact fraction_yields _ _ _
  | none =>
    cases power with
    | none => exact absurd ⟨rfl, rfl⟩ hparts
    | some p =>
      obtain ⟨mark, sign, digits⟩ := p
      have hmark : mark = 'e' ∨ mark = 'E' := (hx.power mark sign digits rfl).1
      have hyields : ∀ rest, Yields (Reader.power negative significand dropped) rest IsReal :=
        fun rest => power_yields _ _ _
      rcases hmark with rfl | rfl <;> exact hyields _

/-- No digit stands behind the digits before the point. -/
lemma isDigit_behindWhole {x : Numeral} (hx : x.WellFormed) {rest : List Char}
    (hrest : FollowsNumber rest) : ∀ c ∈ (x.behindWhole ++ rest).head?, c.isDigit = false := by
  intro c hc
  obtain ⟨sign, whole, fraction, power⟩ := x
  cases fraction with
  | some digits =>
    obtain rfl : '.' = c := Option.some.inj hc
    decide
  | none =>
    cases power with
    | none => exact (hrest c hc).1
    | some p =>
      obtain ⟨mark, sign, digits⟩ := p
      obtain rfl : mark = c := Option.some.inj hc
      rcases (hx.power mark sign digits rfl).1 with rfl | rfl <;> decide

/-! ## Whole numbers -/

/-- **The digits before the point are gathered**: their value, if it fits, and otherwise some of
them are left over. -/
lemma numeral_continues {x : Numeral} (hx : x.WellFormed) {rest : List Char}
    (hrest : ∀ c ∈ rest.head?, c.isDigit = false) :
    ∃ significand dropped,
      Continues (numeral false) (x.whole ++ rest) (afterInteger false significand dropped) rest ∧
        (Literal.decimal x.whole < 2 ^ 64 →
          significand = Literal.decimal x.whole ∧ dropped = 0) ∧
        (¬ Literal.decimal x.whole < 2 ^ 64 → dropped ≠ 0) := by
  rcases hx.whole with hzero | ⟨c, cs, hcons, hnonzero⟩
  · have hvalue : Literal.decimal ['0'] = 0 := rfl
    rw [hzero, hvalue]
    refine ⟨0, 0, ?_, fun _ => ⟨rfl, rfl⟩, fun h => absurd (by decide) h⟩
    have hrun : rest.takeWhile Char.isDigit = [] := by
      have h := Text.takeWhile_append (p := Char.isDigit) (t := []) (fun _ h => by cases h) hrest
      exact h
    refine (peek_takes ('0' :: rest)).continues.trans
      ((advance_takes '0' rest).continues.trans ((peekDigits_takes rest).continues.trans ?_))
    rw [hrun]
    exact fun place => ⟨place, rfl⟩
  · have hdigit : c.isDigit = true := hx.digits c (by rw [hcons]; exact List.mem_cons_self)
    have hrun : (x.whole ++ rest).takeWhile Char.isDigit = x.whole :=
      Text.takeWhile_append hx.digits hrest
    have hvalue : Literal.decimal x.whole = x.whole.foldl Literal.append 0 :=
      Literal.decimal_eq_foldl x.whole
    have hbound : significandBound = 2 ^ 64 := by decide
    refine ⟨(gather significandBound 0 x.whole).1, (gather significandBound 0 x.whole).2.length,
      ?_, fun hfits => ?_, fun hlarge => ?_⟩
    · refine (peek_takes (x.whole ++ rest)).continues.trans ?_
      rw [hcons, List.cons_append, List.head?_cons]
      simp only [hdigit, hnonzero, not_true, if_false]
      rw [← List.cons_append, ← hcons]
      refine (peekDigits_takes (x.whole ++ rest)).continues.trans ?_
      rw [hrun]
      exact (advanceBy_takes x.whole rest).continues
    · rw [hvalue, ← hbound] at hfits
      rw [gather_of_lt hfits, hvalue]
      exact ⟨rfl, rfl⟩
    · rw [hvalue, ← hbound] at hlarge
      have hleft := left_of_gather (by decide) hlarge
      exact fun h => hleft (List.length_eq_zero_iff.mp h)

section

variable {x : Numeral} (hx : x.WellFormed) {rest : List Char} (hrest : FollowsNumber rest)

include hx hrest

/-- **A natural number of 64 bits is read as its value.** -/
theorem numeral_takes {n : Nat} (hn : x.natural? = some n) :
    Takes (numeral false) (x.text ++ rest) (.whole n) rest := by
  unfold Numeral.natural? at hn
  split_ifs at hn with h
  obtain ⟨hsign, hfraction, hpower, hfits⟩ := h
  obtain rfl := Option.some.inj hn
  obtain ⟨significand, dropped, hcontinues, hvalue, -⟩ :=
    numeral_continues hx fun c hc => (hrest c hc).1
  obtain ⟨rfl, rfl⟩ := hvalue hfits
  have htext : x.text = x.whole := by
    simp [Numeral.text, Numeral.behindWhole, hsign, hfraction, hpower]
  have hend := afterInteger_end hrest false (Literal.decimal x.whole) 0
  have hinteger : integer false (Literal.decimal x.whole) = .whole (Literal.decimal x.whole) :=
    if_pos Bool.false_ne_true
  rw [if_pos rfl, hinteger] at hend
  rw [htext]
  exact (hcontinues.trans hend).takes (.pure _ rest)

/-- **Any other number without a sign is read as a double**, if it is read. -/
theorem numeral_yields_real (hsign : x.negative = false) (hn : x.natural? = none) :
    Yields (numeral false) (x.text ++ rest) IsReal := by
  obtain ⟨significand, dropped, hcontinues, -, hlarge⟩ :=
    numeral_continues hx (isDigit_behindWhole hx hrest)
  have htext : x.text ++ rest = x.whole ++ (x.behindWhole ++ rest) := by
    simp [Numeral.text, hsign]
  rw [htext]
  refine hcontinues.yields ?_
  by_cases hparts : x.fraction = none ∧ x.power = none
  · have hdropped : dropped ≠ 0 := by
      refine hlarge fun hfits => ?_
      rw [Numeral.natural?, if_pos ⟨hsign, hparts.1, hparts.2, hfits⟩] at hn
      cases hn
    have hend := afterInteger_end hrest false significand dropped
    rw [if_neg hdropped] at hend
    rw [Numeral.behindWhole, hparts.1, hparts.2]
    exact hend.yields (scaled_yields _ _ _)
  · exact afterInteger_yields hx hparts false significand dropped rest

end

/-! ## Numbers with a sign -/

/-- A double is no whole number. -/
lemma IsReal.ne_whole {x : Json.Number} (h : IsReal x) (n : Nat) : x ≠ .whole n := by
  obtain ⟨y, rfl⟩ := h
  intro heq
  cases heq

/-- Digits behind a minus sign are below zero, or a double. -/
lemma integer_negative (significand n : Nat) : integer true significand ≠ .whole n := by
  intro h
  unfold integer signed at h
  simp only [not_true, if_false] at h
  split_ifs at h with hlarge
  have hnegative : -(significand : Int) = n := Json.Number.whole.inj h
  omega

/-- Nothing that stands behind digits makes a natural number of them, if a sign is in front. -/
lemma afterInteger_negative (significand dropped : Nat) (cs : List Char) :
    Yields (afterInteger true significand dropped) cs fun x => ∀ n : Nat, x ≠ .whole n := by
  have hend : ∀ rest, Yields (if dropped = 0 then pure (integer true significand)
      else scaled true significand dropped : Reader Json.Number) rest
      fun x => ∀ n : Nat, x ≠ .whole n := by
    intro rest
    split_ifs
    · exact .pure (integer_negative significand)
    · exact (scaled_yields _ _ _).imp fun _ h => h.ne_whole
  refine .behind fun ahead rest => ?_
  split
  · exact (fraction_yields _ _ _).imp fun _ h => h.ne_whole
  · next c _ =>
    by_cases hmark : c = 'e' ∨ c = 'E'
    · rw [if_pos hmark]
      exact (power_yields _ _ _).imp fun _ h => h.ne_whole
    · rw [if_neg hmark]
      exact hend rest
  · exact hend rest

/-- **A number with a minus sign is not read as a natural number**, whatever its digits. -/
theorem numeral_negative :
    Yields (numeral true) cs fun x => ∀ n : Nat, x ≠ .whole n := by
  refine .behind fun ahead _ => ?_
  cases ahead with
  | none => exact (fail_fails _).yields
  | some c =>
    dsimp only
    split
    · exact (fail_fails _).yields
    · split
      · refine .behind fun _ _ => .behind fun run rest => ?_
        split
        · exact afterInteger_negative _ _ rest
        · exact (fail_fails _).yields
      · exact .behind fun _ _ => .behind fun _ rest => afterInteger_negative _ _ rest

end Reader

end Formula.Json
