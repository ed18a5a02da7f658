import Formula.Proofs.Lockstep.Couplings

set_option relaxedAutoImplicit false
set_option autoImplicit false

/-!
# What an evaluation may depend on

Whether a text is valid, and which error it has and where, does not depend on any data: not on the
context, nor on how objects are read, nor on random numbers, nor on the clock. Its value depends
only on what the text reads: without a mark on no object and no clock, and without the name of a
random function on no random number.

## Main definitions

* `Formula.SameVerdict` — results that agree in whether there is a value, and in the error.

## Main results

* `Formula.eval_verdict_independent` — the verdict depends on no data, and the value on what the
  text reads.
-/

namespace Formula

/-- **The same verdict**: two values, whatever they are, or the very same error. -/
def SameVerdict : Except EvalError Float → Except EvalError Float → Prop
  | .ok _, .ok _ => True
  | .error e₁, .error e₂ => e₁ = e₂
  | _, _ => False

namespace Coupling

/-- Identical runs come to identical outcomes when their errors are equal and none escapes. -/
lemma Outcome.eq {σ α : Type} {text : List Char}
    {r₁ r₂ : EStateM.Result EvalError (Running σ) α}
    (h : (same σ text Eq fun _ => False).Outcome Eq r₁ r₂) : r₁ = r₂ := by
  cases h with
  | ok ha ht => rw [ha, ht.eq]
  | error he ht =>
    obtain rfl := he
    rw [ht.eq]
  | escape he => exact he.elim

end Coupling

variable {ω₁ ω₂ σ σ₁ σ₂ : Type}

open Coupling in
/-- Two evaluations of one text with one limit come to the same verdict on any data. -/
lemma sameVerdict_of_maxDepth_eq (e₁ e₂ : Evaluator) {env₁ : Env ω₁ σ₁} {env₂ : Env ω₂ σ₂}
    (hdepth : env₁.maxDepth = env₂.maxDepth) (text : String) (h₁ : σ₁) (h₂ : σ₂) :
    SameVerdict (e₁.eval env₁ text h₁).1 (e₂.eval env₂ text h₂).1 := by
  have hlock : (free σ₁ σ₂ text.toList Eq).Lockstep _ (Scanner.formula env₁)
      (Scanner.formula env₂) :=
    .formula (free_respects (fun _ => rfl) env₁ env₂) (.inl ⟨hdepth, congrArg _ hdepth⟩)
  have hout := hlock (.facing 0 text.toList 0 h₁) (.facing 0 text.toList 0 h₂)
    ⟨rfl, rfl, List.suffix_rfl, trivial⟩
  rw [Evaluator.eval_eq, Evaluator.eval_eq]
  generalize Scanner.formula env₁ _ = r₁ at hout ⊢
  generalize Scanner.formula env₂ _ = r₂ at hout ⊢
  cases hout with
  | ok => trivial
  | error he => exact he
  | escape he => exact he.elim

open Coupling in
/-- Two evaluations of one text with one limit are identical when their data agree on the
references that the text makes and on the functions that it names. -/
lemma eval_eq_of_agree (e₁ e₂ : Evaluator) (env₁ : Env ω₁ σ) (env₂ : Env ω₂ σ)
    (hdepth : env₁.maxDepth = env₂.maxDepth) (text : String) (host : σ)
    (href : ∀ s : Running σ, '$' :: s.cursor.rest <:+ text.toList →
      Scanner.reference env₁ s = Scanner.reference env₂ s)
    (hcall : ∀ (f : Builtin) (name : List Char), name <:+: text.toList →
      String.ofList (Text.lower name) = f.name → f.call env₁.random = f.call env₂.random) :
    e₁.eval env₁ text host = e₂.eval env₂ text host := by
  have hlock : (same σ text.toList Eq fun _ => False).Lockstep _ (Scanner.formula env₁)
      (Scanner.formula env₂) :=
    .formula (same_respects (fun _ => rfl) href hcall) (.inl ⟨hdepth, congrArg _ hdepth⟩)
  have hout := hlock (.facing 0 text.toList 0 host) (.facing 0 text.toList 0 host)
    ⟨rfl, rfl, List.suffix_rfl, rfl⟩
  rw [Evaluator.eval_eq, Evaluator.eval_eq, hout.eq]

/-- Only the random functions draw, and both their names contain `rand`. -/
lemma Builtin.call_eq_of_not_rand {f : Builtin} (hf : ¬ "rand".toList <:+: f.name.toList)
    (random₁ random₂ : RandomSource σ) : f.call random₁ = f.call random₂ := by
  cases f with
  | rand => exact absurd List.infix_rfl hf
  | randint => exact absurd (by decide) hf
  | _ => funext args; cases args <;> rfl

/-- **What an evaluation depends on.** With equal limits, whatever the contexts, object models,
sources of random numbers and clock samples are: the verdict is the same, error for error; without
a mark in the text the whole result is the same for every context, model and tick; and without the
letters `rand` in any case it is the same for every source of random numbers.

**Proof sketch.** All three are lockstep. For the first nothing is asked of the data. For the
others the runs stay identical: a text without a mark makes no reference, and in a text without
`rand` no name of a random function occurs, as a name that is read is a part of the text. -/
theorem eval_verdict_independent :
    (∀ {ω₁ ω₂ σ₁ σ₂ : Type} (e₁ e₂ : Evaluator) (env₁ : Env ω₁ σ₁) (env₂ : Env ω₂ σ₂)
      (text : String) (h₁ : σ₁) (h₂ : σ₂), env₁.maxDepth = env₂.maxDepth →
      SameVerdict (e₁.eval env₁ text h₁).1 (e₂.eval env₂ text h₂).1) ∧
    (∀ {ω₁ ω₂ σ : Type} (e₁ e₂ : Evaluator) (env₁ : Env ω₁ σ) (env₂ : Env ω₂ σ) (text : String)
      (host : σ), env₁.maxDepth = env₂.maxDepth → env₁.random = env₂.random →
      '$' ∉ text.toList → e₁.eval env₁ text host = e₂.eval env₂ text host) ∧
    (∀ {ω σ : Type} (e₁ e₂ : Evaluator) (env : Env ω σ) (random : RandomSource σ)
      (text : String) (host : σ), ¬ "rand".toList <:+: Text.lower text.toList →
      e₁.eval env text host = e₂.eval { env with random := random } text host) := by
  refine ⟨?_, ?_, ?_⟩
  · intro ω₁ ω₂ σ₁ σ₂ e₁ e₂ env₁ env₂ text h₁ h₂ hdepth
    exact sameVerdict_of_maxDepth_eq e₁ e₂ hdepth text h₁ h₂
  · intro ω₁ ω₂ σ e₁ e₂ env₁ env₂ text host hdepth hrandom hmark
    refine eval_eq_of_agree e₁ e₂ env₁ env₂ hdepth text host ?_ ?_
    · intro s hs
      exact absurd (hs.subset List.mem_cons_self) hmark
    · intro f _ _ _
      rw [hrandom]
  · intro ω σ e₁ e₂ env random text host hrand
    refine eval_eq_of_agree e₁ e₂ env { env with random := random } rfl text host
      (fun _ _ => rfl) fun f name hname hf => ?_
    apply Builtin.call_eq_of_not_rand
    intro hin
    -- the name that is read would put its letters into the text
    have hlower : f.name.toList = Text.lower name := by rw [← hf, String.toList_ofList]
    rw [hlower] at hin
    exact hrand (hin.trans (hname.map Char.toLower))

/-- On a malformed call behind a path that one context has and the other has not, on a text without
a mark, and on one without a random function. -/
theorem eval_verdict_independent_of_documents :
    SameVerdict
        (Evaluator.blank.eval (.ofDocument (.object [("a", .bool true)]) 3) "$.a+rand(1" 5).1
        (Evaluator.blank.eval (.ofDocument .null 3) "$.a+rand(1" 8).1 ∧
      Evaluator.blank.eval (.ofDocument (.bool true) 3) "2*rand(3)" 5 =
        Evaluator.blank.eval (.ofDocument .null 3) "2*rand(3)" 5 ∧
      Evaluator.blank.eval (.ofDocument (.bool true) 3) "abs($)" 5 =
        Evaluator.blank.eval
          { Env.ofDocument (.bool true) 3 with random := ⟨fun x _ => pure x, fun n _ => pure n⟩ }
          "abs($)" 5 :=
  ⟨eval_verdict_independent.1 _ _ _ _ _ _ _ rfl,
    eval_verdict_independent.2.1 _ _ _ _ _ _ rfl rfl (by decide),
    eval_verdict_independent.2.2 _ _ _ _ _ _ (by decide)⟩

end Formula
