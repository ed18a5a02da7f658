import Formula.Proofs.Completeness
import Formula.Proofs.DataIndependence
import Formula.Proofs.Draws

set_option relaxedAutoImplicit false
set_option autoImplicit false

/-!
# Expressions that draw no random number

Where objects are read by pure functions, random numbers are all that an expression asks of the
host's state. An expression without a call of a random function is then steady: it has one value in
all states, and leaves each as it is. And what draws nothing in one evaluation has no such call, as
each of its calls is completed; so it draws nothing in any other.

## Main definitions

* `Formula.Steady` — computations that neither ask nor change the host's state.
* `Formula.ObjectModel.Steady` — objects that are read by pure functions.

## Main results

* `Formula.Chain.steady_meaning` — expressions without random functions are steady.
* `Formula.Evaluator.eval_of_draws_eq_nil` — a text that draws nothing once has one value.
-/

namespace Formula

open Scanner

variable {ω σ α β : Type}

/-- **A computation that neither asks nor changes the host's state.** -/
def Steady (call : StateM σ α) : Prop :=
  ∃ a, ∀ host, call host = (a, host)

namespace Steady

/-- A value is steady. -/
protected lemma pure (a : α) : Steady (pure a : StateM σ α) :=
  ⟨a, fun _ => rfl⟩

/-- A sequence is steady if both of its parts are. -/
protected lemma bind {call : StateM σ α} {f : α → StateM σ β} (hcall : Steady call)
    (hf : ∀ a, Steady (f a)) : Steady (call >>= f) := by
  obtain ⟨a, ha⟩ := hcall
  obtain ⟨b, hb⟩ := hf a
  refine ⟨b, fun host => ?_⟩
  show f (call host).1 (call host).2 = (b, host)
  rw [ha]
  exact hb host

end Steady

/-- **Objects that are read by pure functions.** -/
structure ObjectModel.Steady (model : ObjectModel ω σ) : Prop where
  number : ∀ object, Formula.Steady (model.number object)
  member : ∀ object name, Formula.Steady (model.member object name)
  component : ∀ object name, Formula.Steady (model.component object name)

/-- Documents are read by pure functions. -/
lemma documents_steady : (documents : ObjectModel Json σ).Steady where
  number v := .pure v.reading
  member v name := .pure (v.member? name)
  component v name := .pure (v.component? name)

/-- Functions other than the random ones compute on their own. -/
lemma Builtin.steady_call {f : Builtin} (hf : f ≠ .rand ∧ f ≠ .randint) (random : RandomSource σ)
    (args : Arguments) : Steady (f.call random args) := by
  obtain ⟨hrand, hrandint⟩ := hf
  cases f with
  | rand => exact absurd rfl hrand
  | randint => exact absurd rfl hrandint
  | _ => cases args <;> exact .pure _

section

variable {env : Env ω σ} (hmodel : env.model.Steady)

include hmodel

/-- Following a path is steady. -/
lemma steady_follow (target : Option ω) (names : List String) :
    Steady (env.model.follow target names) := by
  induction names generalizing target with
  | nil => cases target <;> exact .pure _
  | cons name names ih =>
    cases target with
    | none => exact .pure none
    | some object => exact (hmodel.member object name).bind ih

/-- The number at the end of a path is steady. -/
lemma steady_followed (target : Option ω) (names : List (List Char)) :
    Steady (followed env target names) := by
  refine (steady_follow hmodel target _).bind fun found => ?_
  cases found with
  | none => exact .pure _
  | some object => exact hmodel.number object

/-- What a reference stands for is steady. -/
lemma Reference.steady_meaning (r : Reference) : Steady (r.meaning env) := by
  cases r with
  | context => exact hmodel.number _
  | constant => exact .pure _
  | member names => exact steady_followed hmodel _ names
  | component typeName names =>
    exact (hmodel.component _ _).bind fun found => steady_followed hmodel found names

end

mutual

/-- **An operand without random functions is steady.** -/
theorem Operand.steady_meaning {env : Env ω σ} (hmodel : env.model.Steady) : (e : Operand) →
    (∀ f ∈ e.functions, f ≠ .rand ∧ f ≠ .randint) → Steady (e.meaning env)
  | .literal _ _, _ => .pure _
  | .reference target, _ => target.steady_meaning hmodel
  | .sign _ body, h => (body.steady_meaning hmodel h).bind fun _ => .pure _
  | .group body, h => body.steady_meaning hmodel h
  | .callOne f x, h => by
    have hx := x.steady_meaning hmodel fun g hg => h g (List.mem_append_left [f] hg)
    have hf := h f (List.mem_append_right x.functions (List.mem_singleton_self f))
    exact hx.bind fun _ => (f.steady_call hf env.random _).bind fun _ => .pure _
  | .callTwo f x y, h => by
    have hx := x.steady_meaning hmodel fun g hg =>
      h g (List.mem_append_left [f] (List.mem_append_left y.functions hg))
    have hy := y.steady_meaning hmodel fun g hg =>
      h g (List.mem_append_left [f] (List.mem_append_right x.functions hg))
    have hf := h f (List.mem_append_right (x.functions ++ y.functions) (List.mem_singleton_self f))
    exact hx.bind fun _ => hy.bind fun _ => (f.steady_call hf env.random _).bind fun _ => .pure _
  | .empty, _ => .pure _

/-- **A chain without random functions is steady.** -/
theorem Chain.steady_meaning {env : Env ω σ} (hmodel : env.model.Steady) : (x : Chain) →
    (∀ f ∈ x.functions, f ≠ .rand ∧ f ≠ .randint) → Steady (x.meaning env)
  | .mk first rest, h => by
    have hfirst := first.steady_meaning hmodel fun f hf =>
      h f (List.mem_append_left rest.functions hf)
    exact hfirst.bind fun value => rest.steady_meaning hmodel
      (fun f hf => h f (List.mem_append_right first.functions hf)) value

/-- Links without random functions are steady. -/
theorem Links.steady_meaning {env : Env ω σ} (hmodel : env.model.Steady) : (r : Links) →
    (∀ f ∈ r.functions, f ≠ .rand ∧ f ≠ .randint) → ∀ value, Steady (r.meaning env value)
  | .nil, _, _ => .pure _
  | .cons _ right rest, h, _ => by
    have hright := right.steady_meaning hmodel fun f hf =>
      h f (List.mem_append_left rest.functions hf)
    exact hright.bind fun value => rest.steady_meaning hmodel
      (fun f hf => h f (List.mem_append_right right.functions hf)) _

end

/-- Calls that draw nothing are not of random functions. -/
lemma not_random_of_draws_eq_nil {calls : List Completed} (h : draws calls = []) :
    ∀ f ∈ calls.map Completed.function, f ≠ .rand ∧ f ≠ .randint := by
  intro f hf
  obtain ⟨c, hc, rfl⟩ := List.mem_map.mp hf
  have hnone : c.draw? = none := List.filterMap_eq_nil_iff.mp h c hc
  have hdraw : ¬ (c.function = .rand ∨ c.function = .randint) := by
    rw [← c.isSome_draw?_iff, hnone]
    simp
  exact not_or.mp hdraw

/-- **A text that draws nothing in one evaluation has one value**, if it has any: every evaluation
gives it, whatever the state of the host, and leaves that state as it is.

**Proof sketch.** Whether the text has a value does not depend on the host, so the evaluation that
draws nothing gives one too. By soundness the text is that of an expression, and as it completes all
of its calls, none is of a random function; so the expression is steady. By completeness every
evaluation gives what the expression means. -/
theorem Evaluator.eval_of_draws_eq_nil {env : Env ω σ} (hmodel : env.model.Steady)
    (e₀ e₁ e₂ : Evaluator) {text : String} {host₀ host₁ : σ} {v : Float}
    (hv : (e₁.eval env text host₁).1 = .ok v)
    (hdraws : (e₀.eval env.recorded text ⟨[], host₀⟩).2.2.draws = []) (host₂ : σ) :
    e₂.eval env text host₂ = (.ok v, .blank, host₂) := by
  have hlimit : env.maxDepth = env.recorded.maxDepth := rfl
  have hverdict := sameVerdict_of_maxDepth_eq e₁ e₀ hlimit text host₁ ⟨[], host₀⟩
  rw [hv] at hverdict
  cases hresult : (e₀.eval env.recorded text ⟨[], host₀⟩).1 with
  | error error =>
    rw [hresult] at hverdict
    exact hverdict.elim
  | ok w =>
    obtain ⟨s, hrun⟩ := Evaluator.eval_eq_ok_iff.mp hresult
    obtain ⟨x, hwritten, hwf, hnesting, hmeaning⟩ := formula_derived hrun
    obtain ⟨calls, hcalls⟩ := hwritten.completes env 0 host₀
    have hrecord := (hcalls.draws ⟨[], host₀⟩ rfl).record
    rw [hmeaning] at hrecord
    have hnone : draws calls = [] := by
      rw [Evaluator.eval_eq, hrun] at hdraws
      exact hrecord.symm.trans hdraws
    obtain ⟨a, ha⟩ := x.steady_meaning hmodel (hcalls.functions ▸ not_random_of_draws_eq_nil hnone)
    have heval (e : Evaluator) (host : σ) : e.eval env text host = (.ok a, .blank, host) := by
      rw [Evaluator.eval_eq, (formula_written hwritten hwf env host).1 hnesting, ha]
    have hvalue : a = v := by
      rw [heval] at hv
      exact Except.ok.inj hv
    rw [heval, hvalue]

end Formula
