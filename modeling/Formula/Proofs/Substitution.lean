import Formula.Proofs.NestingLimit
import Formula.Proofs.Pairing.Stretches

set_option relaxedAutoImplicit false
set_option autoImplicit false

/-!
# Substitution between parentheses

What stands between two parentheses may be replaced by anything with the same value, in every text
and whatever the parentheses are there: a group, the first argument of a call, or already an error.
What is read between them leaves nothing behind but its value, so the texts are evaluated alike in
front of them and behind them. Only the name of a type is not evaluated, and must not start there.

## Main definitions

* `Formula.SameAround` — the results of two texts that differ between two parentheses only.

## Main results

* `Formula.Scanner.formula_substituted` — texts with chains of the same meaning between parentheses
  are evaluated alike.
* `Formula.eval_substituted` — so are texts with parts of the same value there.
-/

namespace Formula

open Scanner

variable {ω σ α : Type}

/-- **The results of two texts that differ between two parentheses only**: the same value; or the
same error, which stands at the same position in front of them, or at the same distance behind
them, or tells no position. The numbers are the lengths of what stands in front of the parentheses,
of the two texts between them, and of what stands behind them. -/
inductive SameAround (front first second behind : Nat) :
    Except EvalError Float → Except EvalError Float → Prop
  | value (v : Float) : SameAround front first second behind (.ok v) (.ok v)
  | inFront {i : Nat} (hi : i ≤ front) (v : Violation) :
      SameAround front first second behind (.error (.malformed i v)) (.error (.malformed i v))
  | behind {i : Nat} (hi : i ≤ behind) (v : Violation) :
      SameAround front first second behind (.error (.malformed (front + first + 2 + i) v))
        (.error (.malformed (front + second + 2 + i) v))
  | other {e : EvalError} (he : ∀ p v, e ≠ .malformed p v) :
      SameAround front first second behind (.error e) (.error e)

namespace Overlap

/-- What stands in front of the parentheses in both texts. -/
def inFront (p a b s : List Char) : Overlap :=
  ⟨p, 0, 0, '(' :: (a ++ ')' :: s), '(' :: (b ++ ')' :: s), rfl⟩

/-- What stands behind the parentheses in both texts. -/
def behind (p a b s : List Char) : Overlap :=
  .shifted s (p.length + a.length + 2) (p.length + b.length + 2)

/-- The stretches around the parentheses. -/
def Around (p a b s : List Char) (O : Overlap) : Prop :=
  O = inFront p a b s ∨ O = behind p a b s

/-- No type name starts at the parentheses, and nothing follows the second stretch. -/
lemma Around.sealed {p a b s : List Char} (hname : ¬ ['$', '('] <:+: p ++ ['('])
    {O : Overlap} (hO : Around p a b s O) : O.Sealed 0 := by
  rcases hO with rfl | rfl
  · exact .hole rfl hname
  · exact .ended rfl

end Overlap

/-- Errors that are told at the same place around the parentheses are the same results there. -/
lemma SameAround.of_sameError {p a b s : List Char} {e₁ e₂ : EvalError}
    (h : Overlap.SameError (Overlap.Around p a b s) e₁ e₂) :
    SameAround p.length a.length b.length s.length (.error e₁) (.error e₂) := by
  cases h with
  | other he => exact .other he
  | @malformed O hO i hi v =>
    rcases hO with rfl | rfl
    · show SameAround _ _ _ _ (.error (.malformed (0 + i) v)) (.error (.malformed (0 + i) v))
      rw [Nat.zero_add]
      exact .inFront hi v
    · exact .behind hi v

/-- **Runs that may only lack levels go together** if they end in paired states, and may stop alone
for want of levels. -/
lemma Pairing.Outcome.of_guarded {P : Pairing σ} {env : Env ω σ} {n₁ n₂ levels : Nat} {v : α}
    {t₁ t₂ : Running σ} {r₁ r₂ : EStateM.Result EvalError (Running σ) α}
    (hrefused : P.refused (.tooDeep env.maxDepth)) (h₁ : Guarded env n₁ levels (· = .ok v t₁) r₁)
    (h₂ : Guarded env n₂ levels (· = .ok v t₂) r₂) (ht : P.joined t₁ t₂) : P.Outcome r₁ r₂ := by
  by_cases hlevel₁ : n₁ ≤ levels
  · by_cases hlevel₂ : n₂ ≤ levels
    · rw [h₁.1 hlevel₁, h₂.1 hlevel₂]
      exact .ok ht
    · obtain ⟨s, rfl⟩ := h₂.2 (Nat.lt_of_not_le hlevel₂)
      exact .refused_right hrefused
  · obtain ⟨s, rfl⟩ := h₁.2 (Nat.lt_of_not_le hlevel₁)
    exact .refused_left hrefused

namespace Scanner

open Overlap

variable {env : Env ω σ} {p a b s : List Char} {x y : Chain}

/-- The pairing of two texts around the parentheses between which they differ. Either of them may
lack levels there. -/
abbrev around (env : Env ω σ) (p a b s : List Char) : Pairing σ :=
  .along σ (Around p a b s) 0 (· = .tooDeep env.maxDepth)

section

variable (hx : Chain.Written x a) (hwfx : x.WellFormed false) (hy : Chain.Written y b)
  (hwfy : y.WellFormed false) (hmeaning : ∀ h, x.meaning env h = y.meaning env h)

include hx hwfx hy hwfy hmeaning

/-- **Chains of the same meaning come to the same between the parentheses**, and behind them the two
runs stand at the same place again. -/
lemma chain_substituted {s₁ s₂ : Running σ} (hs : (inFront p a b s).Joined s₁ s₂)
    (h₁ : s₁.cursor.rest = (inFront p a b s).rest₁) (levels : Nat) (scope : Scope) :
    (around env p a b s).Outcome (chain (operand env levels) scope s₁.opened)
      (chain (operand env levels) scope s₂.opened) := by
  obtain ⟨⟨⟨q₁, rest₁⟩, d⟩, h⟩ := s₁
  obtain ⟨⟨⟨q₂, rest₂⟩, d₂⟩, h₂⟩ := s₂
  obtain rfl : d = d₂ := hs.depth
  obtain rfl : h = h₂ := hs.host
  obtain ⟨read, ahead, htext, hc₁, hc₂⟩ := hs.abreast
  -- all of the first stretch has been read
  obtain rfl : ahead = [] := by
    have hahead : ahead ++ (inFront p a b s).rest₁ = (inFront p a b s).rest₁ :=
      (congrArg Cursor.rest hc₁).symm.trans h₁
    exact List.append_left_eq_self.mp hahead
  obtain rfl : p = read := by rw [← List.append_nil read]; exact htext
  obtain ⟨rfl, rfl⟩ := Cursor.mk.inj hc₁
  obtain ⟨rfl, rfl⟩ := Cursor.mk.inj hc₂
  have hreadsx : x.Reads env a := Chain.reads hx
  have hreadsy : y.Reads env b := Chain.reads hy
  have hfirst := hreadsx.close (hwfx.mono fun _ => rfl) levels scope (0 + p.length + 1) s d h
  have hsecond := hreadsy.close (hwfy.mono fun _ => rfl) levels scope (0 + p.length + 1) s d h
  rw [← hmeaning] at hsecond
  refine .of_guarded rfl hfirst hsecond ⟨Nat.zero_le _, behind p a b s, .inr rfl, ?_, rfl, rfl⟩
  refine ⟨[], s, rfl, congrArg₂ Cursor.mk ?_ (List.append_nil s).symm,
    congrArg₂ Cursor.mk ?_ (List.append_nil s).symm⟩
  · show 0 + p.length + 1 + a.length + 1 = p.length + a.length + 2
    omega
  · show 0 + p.length + 1 + b.length + 1 = p.length + b.length + 2
    omega

/-- **Texts with chains of the same meaning between parentheses are evaluated alike.** -/
theorem formula_substituted (hname : ¬ ['$', '('] <:+: p ++ ['(']) (host : σ) :
    (around env p a b s).Outcome (formula env (.facing 0 (p ++ '(' :: (a ++ ')' :: s)) 0 host))
      (formula env (.facing 0 (p ++ '(' :: (b ++ ')' :: s)) 0 host)) := by
  have hP : (around env p a b s).Respects env := by
    refine Pairing.along_respects (fun O hO => hO.sealed hname) ?_
    rintro O (rfl | rfl) hopen - s₁ s₂ hs h₁ levels scope
    · exact chain_substituted hx hwfx hy hwfy hmeaning hs h₁ levels scope
    · cases hopen
  exact hP.formula _ _ ⟨Nat.zero_le _, inFront p a b s, .inl rfl, ⟨[], p, rfl, rfl, rfl⟩, rfl, rfl⟩

end

end Scanner

/-- **What stands between parentheses may be replaced by anything with the same value**, if random
numbers and objects do not depend on what was asked before, no type name starts there, and levels
are not lacking: the results are the same but for the positions of errors behind the parentheses,
which are moved by what the texts differ in length.

**Proof sketch.** What is accepted is the text of a chain, and chains with the same value have the
same meaning for such hosts. So the texts are evaluated alike, and levels that either of them
might lack are there. -/
theorem eval_substituted (e e₁ e₂ : Evaluator) (env : Env ω Unit) {p a b s : String} {v : Float}
    (hname : ¬ ['$', '('] <:+: p.toList ++ ['(']) (ha : (e.eval env a ()).1 = .ok v)
    (hb : (e.eval env b ()).1 = .ok v)
    (hfirst : (p ++ "(" ++ a ++ ")" ++ s).length ≤ env.maxDepth)
    (hsecond : (p ++ "(" ++ b ++ ")" ++ s).length ≤ env.maxDepth) :
    SameAround p.length a.length b.length s.length
      (e₁.eval env (p ++ "(" ++ a ++ ")" ++ s) ()).1
      (e₂.eval env (p ++ "(" ++ b ++ ")" ++ s) ()).1 := by
  obtain ⟨_, hruna⟩ := Evaluator.eval_eq_ok_iff.mp ha
  obtain ⟨_, hrunb⟩ := Evaluator.eval_eq_ok_iff.mp hb
  obtain ⟨x, hx, hwfx, -, hmeaningx⟩ := formula_derived hruna
  obtain ⟨y, hy, hwfy, -, hmeaningy⟩ := formula_derived hrunb
  have hmeaning (h : Unit) : x.meaning env h = y.meaning env h := hmeaningx.trans hmeaningy.symm
  have htext (t : String) : (p ++ "(" ++ t ++ ")" ++ s).toList =
      p.toList ++ '(' :: (t.toList ++ ')' :: s.toList) := by simp
  have hdeep₁ := eval_ne_tooDeep e₁ env hfirst () env.maxDepth
  have hdeep₂ := eval_ne_tooDeep e₂ env hsecond () env.maxDepth
  have hout := formula_substituted (s := s.toList) hx hwfx hy hwfy hmeaning hname ()
  simp only [Evaluator.evalWithin] at hdeep₁ hdeep₂
  rw [Evaluator.eval_eq, htext] at hdeep₁ hdeep₂ ⊢
  rw [Evaluator.eval_eq, htext]
  generalize formula env (.facing 0 (p.toList ++ '(' :: (a.toList ++ ')' :: s.toList)) 0 ()) = r₁
    at hout hdeep₁ ⊢
  generalize formula env (.facing 0 (p.toList ++ '(' :: (b.toList ++ ')' :: s.toList)) 0 ()) = r₂
    at hout hdeep₂ ⊢
  simp only [← String.length_toList]
  cases hout with
  | ok _ => exact .value _
  | error he _ => exact .of_sameError he
  | astray ht => exact absurd ht (Nat.not_lt_zero _)
  | refused_left he => exact absurd (congrArg Except.error he) hdeep₁
  | refused_right he => exact absurd (congrArg Except.error he) hdeep₂

/-- On a reference that is replaced by a longer group with its value, in front of an unmatched
parenthesis. -/
theorem eval_substituted_reference :
    let env : Env Json Unit :=
      ⟨.null, documents, ⟨fun x _ => pure x, fun n _ => pure n⟩, Tick.zero, 16⟩
    (Evaluator.blank.eval env "$ + ($)) + $" ()).1 = .error (.malformed 7 .unmatchedClose) ∧
      SameAround 4 1 5 5 (Evaluator.blank.eval env "$ + ($)) + $" ()).1
        (Evaluator.blank.eval env "$ + (( $ ))) + $" ()).1 := by
  intro env
  have hname : ¬ ['$', '('] <:+: "$ + ".toList ++ ['('] := by decide
  have hreference : (Evaluator.blank.eval env "$" ()).1 = .ok 0.0 := rfl
  have hgroup : (Evaluator.blank.eval env "( $ )" ()).1 = .ok 0.0 := rfl
  have hfirst : ("$ + " ++ "(" ++ "$" ++ ")" ++ ") + $").length ≤ 16 := by decide
  have hsecond : ("$ + " ++ "(" ++ "( $ )" ++ ")" ++ ") + $").length ≤ 16 := by decide
  exact ⟨rfl, eval_substituted .blank .blank .blank env hname hreference hgroup hfirst hsecond⟩

end Formula
