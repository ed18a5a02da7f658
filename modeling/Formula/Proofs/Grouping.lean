import Formula.Proofs.NestingLimit
import Formula.Proofs.Pairing.Stretches

set_option relaxedAutoImplicit false
set_option autoImplicit false

/-!
# Parentheses around the beginning of a text

No operator binds tighter than another, and all of them associate to the left. So parentheses around
the beginning of a text change nothing, if the beginning is accepted by itself and ends where an
operand may end: behind it the evaluation goes on with the same value, whatever follows. The
parentheses only move what follows them, and with it the position that an error tells.

## Main definitions

* `Formula.EvalError.movedBy` — an error in a text that stands so many characters further on.

## Main results

* `Formula.eval_grouped` — parentheses around an accepted beginning change nothing.
-/

namespace Formula

open Scanner

variable {ω σ : Type}

/-- **An error in a text that stands so many characters further on.** -/
def EvalError.movedBy (k : Nat) : EvalError → EvalError
  | .malformed position violation => .malformed (position + k) violation
  | error => error

/-- An error that tells no position stays the same. -/
lemma EvalError.movedBy_of_ne {e : EvalError} (he : ∀ p v, e ≠ .malformed p v) (k : Nat) :
    e.movedBy k = e := by
  cases e with
  | malformed p v => exact absurd rfl (he p v)
  | tooDeep | unknownFunction | argumentCount => rfl

namespace Scanner

variable {env : Env ω σ} {x : Chain} {t rest : List Char}

/-- **A chain is read from the beginning of a text**, and its links go on with what follows. -/
lemma formula_append (hx : Chain.Written x t) (hwf : x.WellFormed false)
    (hnesting : x.nesting ≤ env.maxDepth) (hrest : FollowsOperand rest) (htouch : MayTouch t rest)
    (h : σ) :
    formula env (.facing 0 (t ++ rest) 0 h) =
      (links env env.maxDepth .whole (x.meaning env h).1 >>= fun r => pure r.1)
        (.facing t.length rest 0 (x.meaning env h).2) := by
  have hlast (h : false = true) : Closes rest := absurd h Bool.false_ne_true
  have hreads : x.Reads env t := Chain.reads hx
  have hchain := (hreads false env.maxDepth .whole rest 0 0 h hwf hrest htouch hlast).1 hnesting
  rw [Nat.zero_add] at hchain
  rw [formula, bind_apply, bind_apply, hchain]

/-- **The links of a text do not depend on where it stands**: they come to the same value or to the
same error, which is told as much further on, and leave the host in the same state. -/
lemma links_moved (env : Env ω σ) (levels k p : Nat) (r : Float) (rest : List Char) (h : σ) :
    (∃ y s₁ s₂, links env levels .whole r (.facing (p + k) rest 0 h) = .ok y s₁ ∧
        links env levels .whole r (.facing p rest 0 h) = .ok y s₂ ∧ s₁.host = s₂.host) ∨
      ∃ e s₁ s₂, links env levels .whole r (.facing (p + k) rest 0 h) = .error (e.movedBy k) s₁ ∧
        links env levels .whole r (.facing p rest 0 h) = .error e s₂ ∧ s₁.host = s₂.host := by
  let O : Overlap := .shifted rest (p + k) p
  let P : Pairing σ := .along σ (· = O) 0 fun _ => False
  have hP : P.Respects env := by
    refine Pairing.along_respects ?_ ?_
    · rintro _ rfl
      exact .ended rfl
    · rintro _ rfl hopen
      cases hopen
  have hstart : P.joined (.facing (p + k) rest 0 h) (.facing p rest 0 h) := by
    have hrest : rest = rest ++ [] := (List.append_nil rest).symm
    exact ⟨Nat.zero_le _, O, rfl, ⟨[], rest, rfl, congrArg _ hrest, congrArg _ hrest⟩, rfl, rfl⟩
  have hout := hP.links (hP.operand levels) .whole r _ _ hstart
  generalize links env levels .whole r (.facing (p + k) rest 0 h) = r₁ at hout ⊢
  generalize links env levels .whole r (.facing p rest 0 h) = r₂ at hout ⊢
  cases hout with
  | ok ht => exact .inl ⟨_, _, _, rfl, rfl, hP.host ht⟩
  | astray ht => exact absurd ht (Nat.not_lt_zero _)
  | refused_left he => exact he.elim
  | refused_right he => exact he.elim
  | error he hhost =>
    refine .inr ⟨_, _, _, congrArg₂ _ ?_ rfl, rfl, hhost⟩
    cases he with
    | malformed hO hi v =>
      subst hO
      show EvalError.malformed (p + k + _) v = .malformed (p + _ + k) v
      rw [Nat.add_right_comm]
    | other he => exact (EvalError.movedBy_of_ne he k).symm

end Scanner

/-- **Parentheses around an accepted beginning change nothing** but the positions of errors behind
them, as long as the beginning ends where an operand may end and a mark at its end does not touch a
minus sign and a letter.

**Proof sketch.** The beginning is the text of a chain, and so it is in parentheses, with the same
meaning. Behind either of them links go on with that value in front of the same text, which only
stands two characters further on in one of them. -/
theorem eval_grouped (e e₁ e₂ : Evaluator) (env : Env ω σ) (host : σ) {d : Nat} (hd : 1 ≤ d)
    {a s : String} {v : Float} (ha : (e.evalWithin env (d - 1) a host).1 = .ok v)
    (hs : FollowsOperand s.toList) (htouch : MayTouch a.toList s.toList) :
    (e₁.evalWithin env d ("(" ++ a ++ ")" ++ s) host).1 =
        (e₂.evalWithin env d (a ++ s) host).1.mapError (EvalError.movedBy 2) ∧
      (e₁.evalWithin env d ("(" ++ a ++ ")" ++ s) host).2 =
        (e₂.evalWithin env d (a ++ s) host).2 := by
  obtain ⟨s₁, hrun⟩ := Evaluator.eval_eq_ok_iff.mp ha
  obtain ⟨x, hx, hwf, hnesting, -⟩ := formula_derived hrun
  have hle : x.nesting ≤ d - 1 := hnesting
  let env' : Env ω σ := { env with maxDepth := d }
  have hplain : formula env' (.facing 0 (a.toList ++ s.toList) 0 host) = _ :=
    formula_append hx hwf (show x.nesting ≤ d by omega) hs htouch host
  have hgroupwf : (Chain.mk (.group x) .nil).WellFormed false := ⟨hwf.mono fun _ => rfl, trivial⟩
  have hgrouple : (Chain.mk (.group x) .nil).nesting ≤ env'.maxDepth := by
    show max (x.nesting + 1) 0 ≤ d
    omega
  have hgrouped : formula env' (.facing 0 ('(' :: a.toList ++ [')'] ++ s.toList) 0 host) = _ :=
    formula_append hx.enclosed hgroupwf hgrouple hs (.of_close _ _) host
  have hlength : ('(' :: a.toList ++ [')']).length = a.toList.length + 2 := by simp
  have hmeaning : (Chain.mk (.group x) .nil).meaning env' host = x.meaning env' host := rfl
  have htext : ("(" ++ a ++ ")" ++ s).toList = '(' :: a.toList ++ [')'] ++ s.toList := by simp
  rw [hlength, hmeaning] at hgrouped
  rw [Evaluator.evalWithin, Evaluator.evalWithin, Evaluator.eval_eq, Evaluator.eval_eq, htext,
    String.toList_append, hgrouped, hplain, bind_apply, bind_apply]
  obtain ⟨y, s₁, s₂, h₁, h₂, hhost⟩ | ⟨error, s₁, s₂, h₁, h₂, hhost⟩ :=
    links_moved env' d 2 a.toList.length (x.meaning env' host).1 s.toList (x.meaning env' host).2
  · rw [h₁, h₂]
    exact ⟨rfl, congrArg (Prod.mk _) hhost⟩
  · rw [h₁, h₂]
    exact ⟨rfl, congrArg (Prod.mk _) hhost⟩

/-- On a reference in front of an unmatched parenthesis, which stands two characters further on
behind the group. -/
theorem eval_grouped_reference :
    (Evaluator.blank.evalWithin (.ofDocument .null 0) 1 "($) + $)" 5).1 =
        .error (.malformed 7 .unmatchedClose) ∧
      (Evaluator.blank.evalWithin (.ofDocument .null 0) 1 "$ + $)" 5).1 =
        .error (.malformed 5 .unmatchedClose) := by
  have haccepted :
      (Evaluator.blank.evalWithin (.ofDocument .null 0) (1 - 1) "$" 5).1 = .ok 0.0 := rfl
  have hfollows : FollowsOperand " + $)".toList := by
    rintro _ ⟨⟩
    decide
  have hplain : (Evaluator.blank.evalWithin (.ofDocument .null 0) 1 ("$" ++ " + $)") 5).1 =
      .error (.malformed 5 .unmatchedClose) := rfl
  obtain ⟨hresult, -⟩ := eval_grouped .blank .blank .blank (.ofDocument .null 0) 5 (Nat.le_refl 1)
    haccepted hfollows (.of_head (by decide))
  rw [hplain] at hresult
  exact ⟨hresult, hplain⟩

end Formula
