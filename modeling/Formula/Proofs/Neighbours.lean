import Formula.Proofs.Lexical

set_option relaxedAutoImplicit false
set_option autoImplicit false

/-!
# What stands next to what

The parts of a formula are read one after the other with one character of lookahead, so each must
end where the next one begins. Here are the first characters of operands and links, and what they
mean for the parts before them.

## Main definitions

* `Formula.Closes` — the texts that start with a closing parenthesis, blanks aside.

## Main results

* `Formula.Links.Written.followsOperand` — links may follow an operand.
* `Formula.Operand.Written.followsOperator` — an operand may follow an operator.
* `Formula.MayTouch.append` — a text that may touch links may touch what follows them.
-/

namespace Formula

/-! ## What follows a chain -/

/-- **A closing parenthesis comes next**, blanks aside. -/
def Closes (rest : List Char) : Prop :=
  ∃ w cs, Blanks w ∧ rest = w ++ ')' :: cs

/-- The end of the text may follow an operand. -/
lemma FollowsOperand.nil : FollowsOperand [] := by
  intro c hc
  cases hc

/-- A closing parenthesis may follow an operand. -/
lemma FollowsOperand.close (cs : List Char) : FollowsOperand (')' :: cs) := by
  rintro _ ⟨⟩
  decide

/-- A comma may follow an operand. -/
lemma FollowsOperand.comma (cs : List Char) : FollowsOperand (',' :: cs) := by
  rintro _ ⟨⟩
  decide

/-- A closing parenthesis closes. -/
lemma Closes.close (cs : List Char) : Closes (')' :: cs) :=
  ⟨[], cs, .nil, rfl⟩

/-- Blanks may stand before a closing parenthesis. -/
lemma Closes.blanks {w rest : List Char} (hw : Blanks w) (h : Closes rest) :
    Closes (w ++ rest) := by
  obtain ⟨v, cs, hv, rfl⟩ := h
  refine ⟨w ++ v, cs, ?_, (List.append_assoc _ _ _).symm⟩
  intro c hc
  exact (List.mem_append.mp hc).elim (hw c) (hv c)

/-! ## Trees in front of a closing parenthesis -/

/-- An operand that can be written can be written in front of a closing parenthesis as well. -/
lemma Operand.WellFormed.mono {last last' : Bool} (h : last = true → last' = true) :
    ∀ {e : Operand}, e.WellFormed last → e.WellFormed last'
  | .literal _ _, hwf => hwf
  | .reference _, hwf => hwf
  | .sign _ body, hwf => Operand.WellFormed.mono (e := body) h hwf
  | .group _, hwf => hwf
  | .callOne _ _, hwf => hwf
  | .callTwo _ _ _, hwf => hwf
  | .empty, hwf => h hwf

/-- Links that can be written can be written in front of a closing parenthesis as well. -/
lemma Links.WellFormed.mono {last last' : Bool} (h : last = true → last' = true) :
    ∀ {r : Links}, r.WellFormed last → r.WellFormed last'
  | .nil, _ => trivial
  | .cons _ _ rest, hwf => by
    refine ⟨hwf.1.mono fun hend => ?_, Links.WellFormed.mono h hwf.2⟩
    simp only [Bool.and_eq_true] at hend ⊢
    exact ⟨h hend.1, hend.2⟩

/-- **Any chain that can be written can be written in parentheses.** -/
lemma Chain.WellFormed.mono {last last' : Bool} (h : last = true → last' = true) {x : Chain}
    (hwf : x.WellFormed last) : x.WellFormed last' := by
  obtain ⟨first, rest⟩ := x
  refine ⟨hwf.1.mono fun hend => ?_, hwf.2.mono h⟩
  simp only [Bool.and_eq_true] at hend ⊢
  exact ⟨h hend.1, hend.2⟩

/-! ## Texts that touch -/

namespace MayTouch

variable {c : Char} {t u rest : List Char}

/-- Only the end of a text matters for what may touch it. -/
lemma of_cons (h : MayTouch (c :: t) rest) : MayTouch t rest := by
  rintro ⟨hmark, hminus⟩
  refine h ⟨?_, hminus⟩
  rw [List.getLast?_cons, hmark, Option.getD_some]

/-- Anything may touch no text. -/
lemma nil (rest : List Char) : MayTouch [] rest := by
  rintro ⟨hmark, -⟩
  exact absurd hmark (by simp)

/-- A text that may touch another may touch its beginning. -/
lemma of_append (h : MayTouch t (u ++ rest)) : MayTouch t u := by
  rintro ⟨hmark, hminus, hletter⟩
  rcases u with _ | ⟨b, _ | ⟨a, u⟩⟩
  · exact absurd hminus (by simp)
  · exact absurd hletter (by simp)
  · exact h ⟨hmark, hminus, hletter⟩

/-- What stands before a text does not matter for what may touch it, if it has no mark. -/
lemma append_left {w : List Char} (hw : '$' ∉ w) (h : MayTouch t rest) :
    MayTouch (w ++ t) rest := by
  rintro ⟨hmark, hminus⟩
  rw [List.getLast?_append] at hmark
  cases ht : t.getLast? with
  | none =>
    rw [ht, Option.none_or] at hmark
    exact hw (List.mem_of_getLast? hmark)
  | some c =>
    rw [ht, Option.some_or] at hmark
    exact h ⟨ht.trans hmark, hminus⟩

/-- A text that does not end in a mark may touch any other. -/
lemma of_getLast? (h : t.getLast? ≠ some '$') : MayTouch t rest :=
  fun hmark => h hmark.1

/-- A closing parenthesis may touch any text. -/
lemma of_close (t rest : List Char) : MayTouch (t ++ [')']) rest :=
  of_getLast? (by simp)

/-- A text may touch any other that does not start with a minus sign. -/
lemma of_head (h : rest.head? ≠ some '-') : MayTouch t rest :=
  fun hminus => h hminus.2.1

/-- The end of a text may touch what the text may touch. -/
lemma of_append_left {w : List Char} (h : MayTouch (w ++ t) rest) : MayTouch t rest := by
  rintro ⟨hmark, hminus⟩
  refine h ⟨?_, hminus⟩
  rw [List.getLast?_append, hmark, Option.some_or]

/-- **A text that may touch another may touch what follows it**, since no letter follows an
operand. -/
lemma append (h : MayTouch t u) (hrest : FollowsOperand rest) (hbehind : MayTouch (t ++ u) rest) :
    MayTouch t (u ++ rest) := by
  rintro ⟨hmark, hminus, hletter⟩
  rcases u with _ | ⟨b, _ | ⟨a, u⟩⟩
  · rw [List.append_nil] at hbehind
    exact hbehind ⟨hmark, hminus, hletter⟩
  · rw [List.singleton_append, List.tail_cons] at hletter
    cases hc : rest.head? with
    | none =>
      rw [hc] at hletter
      exact absurd hletter (by simp)
    | some c =>
      have halphanum := hrest.not_isAlphanum c hc
      rw [hc, Option.any_some] at hletter
      rw [Char.isAlphanum, hletter, Bool.true_or] at halphanum
      exact absurd halphanum (by simp)
  · exact h ⟨hmark, hminus, hletter⟩

end MayTouch

/-- A chain in parentheses is the only operand of a chain. -/
lemma Chain.Written.enclosed {x : Chain} {t : List Char} (h : Chain.Written x t) :
    Chain.Written (.mk (.group x) .nil) ('(' :: t ++ [')']) := by
  have hend : Links.Written .nil [] := .nil .nil
  have hgroup := Chain.Written.mk (.group h) hend (MayTouch.of_close _ _)
  rwa [List.append_nil] at hgroup

/-! ## First characters -/

/-- **Links may follow an operand**, with whatever may follow an operand behind them. -/
lemma Links.Written.followsOperand {r : Links} {u rest : List Char} (h : Links.Written r u)
    (hrest : FollowsOperand rest) : FollowsOperand (u ++ rest) := by
  have hblanks {w cs : List Char} (hw : Blanks w) (hcs : FollowsOperand cs) :
      FollowsOperand (w ++ cs) := by
    cases w with
    | nil => exact hcs
    | cons b w =>
      rintro _ ⟨⟩
      simp [Scanner.endsOperand, hw b List.mem_cons_self]
  cases h with
  | nil hw => exact hblanks hw hrest
  | cons hw htoken _ _ _ =>
    obtain ⟨c, tail, rfl, -, hends, -⟩ := Operator.head_of_mem_spellings htoken
    simp only [List.append_assoc]
    refine hblanks hw ?_
    rintro _ ⟨⟩
    exact hends

/-- The last operand of a chain stands in front of a closing parenthesis if the chain does. -/
lemma Links.Written.closes {last : Bool} {r : Links} {u rest : List Char} (h : Links.Written r u)
    (hlast : last = true → Closes rest) (hend : (last && r.isNil) = true) :
    Closes (u ++ rest) := by
  obtain ⟨hclose, hnil⟩ := Bool.and_eq_true_iff.mp hend
  cases h with
  | nil hw => exact (hlast hclose).blanks hw
  | cons => exact absurd hnil (by simp [Links.isNil])

/-- **An operand does not make the operator before it longer.** -/
lemma Operand.Written.followsOperator {last : Bool} {e : Operand} {t rest : List Char}
    (he : e.WellFormed last) (h : Operand.Written e t) (hlast : last = true → Closes rest) :
    FollowsOperator (t ++ rest) := by
  have hdigits {digits : List Char} (hne : digits ≠ []) (hd : ∀ c ∈ digits, c.isDigit = true)
      (cs : List Char) : FollowsOperator (digits ++ cs) := by
    obtain ⟨b, bs, rfl⟩ := List.exists_cons_of_ne_nil hne
    exact .of_isAlphanum (by rw [Char.isAlphanum, hd b List.mem_cons_self, Bool.or_true]) _
  have hname {f : Builtin} {name : List Char} (hf : Text.lower name = f.name.toList)
      (cs : List Char) : FollowsOperator (name ++ cs) := by
    obtain ⟨b, bs, rfl, hb⟩ := Builtin.head_of_lower hf
    exact .of_isAlphanum (by rw [Char.isAlphanum, hb, Bool.true_or]) _
  cases h with
  | blank hc _ => exact .of_isBlank hc _
  | whole digits => exact hdigits he.1 he.2.1 rest
  | point digits fraction =>
    rw [List.append_assoc]
    exact hdigits he.1 he.2.1 _
  | callOne hf _ _ =>
    simp only [List.append_assoc]
    exact hname hf _
  | callTwo hf _ _ _ =>
    simp only [List.append_assoc]
    exact hname hf _
  | empty =>
    obtain ⟨w, cs, hw, rfl⟩ := hlast he
    cases w with
    | nil =>
      rintro _ ⟨⟩
      decide
    | cons b w => exact .of_isBlank (hw b List.mem_cons_self) _
  | reference | plus | minus | group =>
    rintro _ ⟨⟩
    decide

end Formula
