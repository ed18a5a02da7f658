import Formula.Proofs.Lockstep.Couplings

set_option relaxedAutoImplicit false
set_option autoImplicit false

/-!
# Hosts that give the same answers

One text may be evaluated against two hosts that keep different states. If their states are related
by a relation that every call preserves, and related states give the same answers, then the two
evaluations give the same result and leave related states behind. A host that keeps its state in a
part of a larger one is such a host.

## Main definitions

* `Formula.SameAnswer` — calls that give the same answer.
* `Formula.Env.Alike` — data that differ in the states of their hosts only.
* `Formula.Part.Carries` — a part that carries the state of another host.

## Main results

* `Formula.Env.Alike.follow`, `Formula.Env.Alike.call` — paths and functions give the same answers.
* `Formula.Coupling.alike_respects` — evaluations against alike hosts run in lockstep.
* `Formula.Env.Alike.eval` — they give the same result.
-/

namespace Formula

variable {ω σ₁ σ₂ σ τ α β : Type}

/-- **Calls that give the same answer** in related states, and leave related states behind. -/
def SameAnswer (R : σ₁ → σ₂ → Prop) (call₁ : StateM σ₁ α) (call₂ : StateM σ₂ α) : Prop :=
  ∀ h₁ h₂, R h₁ h₂ → (call₁ h₁).1 = (call₂ h₂).1 ∧ R (call₁ h₁).2 (call₂ h₂).2

namespace SameAnswer

variable {R : σ₁ → σ₂ → Prop}

/-- No call at all gives the same answer. -/
protected lemma pure (a : α) : SameAnswer R (pure a) (pure a) :=
  fun _ _ h => ⟨rfl, h⟩

/-- Calls in sequence give the same answer, if each of them does. -/
protected lemma bind {call₁ : StateM σ₁ α} {call₂ : StateM σ₂ α} {f₁ : α → StateM σ₁ β}
    {f₂ : α → StateM σ₂ β} (hcall : SameAnswer R call₁ call₂)
    (hf : ∀ a, SameAnswer R (f₁ a) (f₂ a)) : SameAnswer R (call₁ >>= f₁) (call₂ >>= f₂) := by
  intro h₁ h₂ h
  obtain ⟨ha, hleft⟩ := hcall h₁ h₂ h
  show (f₁ (call₁ h₁).1 (call₁ h₁).2).1 = (f₂ (call₂ h₂).1 (call₂ h₂).2).1 ∧
    R (f₁ (call₁ h₁).1 (call₁ h₁).2).2 (f₂ (call₂ h₂).1 (call₂ h₂).2).2
  rw [ha]
  exact hf _ _ _ hleft

/-- What is made of the same answers is the same. -/
protected lemma map {call₁ : StateM σ₁ α} {call₂ : StateM σ₂ α} (hcall : SameAnswer R call₁ call₂)
    (f : α → β) : SameAnswer R (f <$> call₁) (f <$> call₂) := by
  intro h₁ h₂ h
  obtain ⟨ha, hleft⟩ := hcall h₁ h₂ h
  exact ⟨congrArg f ha, hleft⟩

end SameAnswer

/-! ## Parts of a host's state -/

/-- **A part that carries the state of another host**: related states have that state in the part,
and replacing it on both sides keeps them related. -/
structure Part.Carries (part : Part σ τ) (R : σ → τ → Prop) : Prop where
  get : ∀ {s t}, R s t → part.get s = t
  set : ∀ {s t} t', R s t → R (part.set t' s) t'

/-- A call that is made on the part gives the answer that it gives on its own. -/
lemma SameAnswer.of_carries {part : Part σ τ} {R : σ → τ → Prop} (hpart : part.Carries R)
    (call : StateM τ α) : SameAnswer R (part.run call) call := by
  intro s t h
  show (call (part.get s)).1 = _ ∧ R (part.set (call (part.get s)).2 s) _
  rw [hpart.get h]
  exact ⟨rfl, hpart.set _ h⟩

/-! ## Data that differ in their hosts' states only -/

/-- **Data that differ in the states of their hosts only**: the calls on the hosts give the same
answers, and all else is the same. -/
structure Env.Alike (R : σ₁ → σ₂ → Prop) (env₁ : Env ω σ₁) (env₂ : Env ω σ₂) : Prop where
  context : env₁.context = env₂.context
  tick : env₁.tick = env₂.tick
  maxDepth : env₁.maxDepth = env₂.maxDepth
  number : ∀ object, SameAnswer R (env₁.model.number object) (env₂.model.number object)
  member : ∀ object name,
    SameAnswer R (env₁.model.member object name) (env₂.model.member object name)
  component : ∀ object name,
    SameAnswer R (env₁.model.component object name) (env₂.model.component object name)
  uniform : ∀ min max, SameAnswer R (env₁.random.uniform min max) (env₂.random.uniform min max)
  integer : ∀ min max, SameAnswer R (env₁.random.integer min max) (env₂.random.integer min max)

/-- Hosts that keep their state in a part that carries it are alike. -/
lemma Env.alike_within {part : Part σ τ} {R : σ → τ → Prop} (hpart : part.Carries R) (context : ω)
    (model : ObjectModel ω τ) (random : RandomSource τ) (tick : Tick) (maxDepth : Nat) :
    Alike R ⟨context, model.within part, random.within part, tick, maxDepth⟩
      ⟨context, model, random, tick, maxDepth⟩ where
  context := rfl
  tick := rfl
  maxDepth := rfl
  number _ := .of_carries hpart _
  member _ _ := .of_carries hpart _
  component _ _ := .of_carries hpart _
  uniform _ _ := .of_carries hpart _
  integer _ _ := .of_carries hpart _

namespace Env.Alike

variable {R : σ₁ → σ₂ → Prop} {env₁ : Env ω σ₁} {env₂ : Env ω σ₂} (h : Alike R env₁ env₂)

include h

/-- Paths lead to the same objects. -/
lemma follow (target : Option ω) (names : List String) :
    SameAnswer R (env₁.model.follow target names) (env₂.model.follow target names) := by
  induction names generalizing target with
  | nil => cases target <;> exact .pure _
  | cons name names ih =>
    cases target with
    | none => exact .pure _
    | some object => exact .bind (h.member object name) ih

/-- Functions compute the same. -/
lemma call (f : Builtin) (args : Arguments) :
    SameAnswer R (f.call env₁.random args) (f.call env₂.random args) := by
  cases f <;> cases args
  case rand.one max => exact (h.uniform 0.0 max).map some
  case rand.two min max => exact (h.uniform min max).map some
  case randint.one max => exact (h.integer 0 max.toInt64).bind fun _ => .pure _
  case randint.two min max => exact (h.integer min.toInt64 max.toInt64).bind fun _ => .pure _
  all_goals exact .pure _

end Env.Alike

/-! ## Evaluations against alike hosts -/

namespace Coupling

/-- **The coupling of runs against two hosts** whose states are related: values and errors are the
same. -/
def alike (R : σ₁ → σ₂ → Prop) (text : List Char) : Coupling σ₁ σ₂ where
  text := text
  hosts := R
  values := Eq
  errors := Eq
  escapes _ := False

variable {R : σ₁ → σ₂ → Prop} {text : List Char} {env₁ : Env ω σ₁} {env₂ : Env ω σ₂}

/-- Calls that give the same answer are made in lockstep. -/
protected lemma Lockstep.onHost_alike {call₁ : StateM σ₁ α} {call₂ : StateM σ₂ α}
    (h : SameAnswer R call₁ call₂) :
    (alike R text).Lockstep Eq (Scanner.onHost call₁) (Scanner.onHost call₂) :=
  .onHost h

/-- Alike data refer to the same objects. -/
lemma alike_refers (h : Env.Alike R env₁ env₂) : (alike R text).Refers Eq env₁ env₂ where
  context := congrArg some h.context
  component name := by
    rw [h.context]
    exact .onHost_alike (h.component _ name)
  follow {target _} names htarget := by
    subst htarget
    exact .onHost_alike (h.follow target names)
  number {found _} hfound := by
    subst hfound
    cases found with
    | none => exact .pure rfl
    | some object => exact .onHost_alike (h.number object)
  constant name := by
    rw [h.tick]
    rfl
  violation _ _ := rfl

/-- Arguments with the same values are the same. -/
lemma Args.eq_of_alike {args₁ args₂ : Arguments}
    (h : (alike R text).Args args₁ args₂) : args₁ = args₂ := by
  cases h with
  | one hx => rw [hx]
  | two hx hy => rw [hx, hy]

/-- **Alike data keep runs in lockstep.** -/
theorem alike_respects (h : Env.Alike R env₁ env₂) (text : List Char) :
    (alike R text).Respects env₁ env₂ where
  refl _ := rfl
  neg hx := congrArg Neg.neg hx
  apply op _ _ _ _ hx hy := congrArg₂ op.apply hx hy
  reference hs _ := Lockstep.reference (alike_refers h) _ _ hs
  call := by
    intro f name args₁ args₂ h₁ h₂ _ _ hargs hhosts
    obtain rfl : args₁ = args₂ := hargs.eq_of_alike
    obtain ⟨hresult, hleft⟩ := h.call f args₁ h₁ h₂ hhosts
    refine ⟨?_, hleft⟩
    rw [hresult]
    cases (f.call env₂.random args₁ h₂).1
    · exact .none
    · exact .some rfl
  errors _ := rfl

/-- What two runs against alike hosts come to is the same, but for the states of the hosts. -/
lemma Outcome.eq_of_alike {r₁ : EStateM.Result EvalError (Running σ₁) α}
    {r₂ : EStateM.Result EvalError (Running σ₂) α}
    (h : (alike R text).Outcome Eq r₁ r₂) :
    (∃ a t₁ t₂, r₁ = .ok a t₁ ∧ r₂ = .ok a t₂ ∧ R t₁.host t₂.host) ∨
      ∃ e t₁ t₂, r₁ = .error e t₁ ∧ r₂ = .error e t₂ ∧ R t₁.host t₂.host := by
  cases h with
  | ok ha ht => exact .inl ⟨_, _, _, rfl, congrArg (EStateM.Result.ok · _) ha.symm, ht.hosts⟩
  | error he ht => exact .inr ⟨_, _, _, rfl, congrArg (EStateM.Result.error · _) he.symm, ht.hosts⟩
  | escape he => exact he.elim

end Coupling

/-- **Evaluations against alike hosts give the same result**, and leave the states of the hosts
related. -/
theorem Env.Alike.eval {R : σ₁ → σ₂ → Prop} {env₁ : Env ω σ₁} {env₂ : Env ω σ₂}
    (h : Alike R env₁ env₂) (e : Evaluator) (text : String) : SameAnswer R
      (fun host => ((e.eval env₁ text host).1, (e.eval env₁ text host).2.2))
      (fun host => ((e.eval env₂ text host).1, (e.eval env₂ text host).2.2)) := by
  intro h₁ h₂ hhosts
  have hlock : (Coupling.alike R text.toList).Lockstep Eq (Scanner.formula env₁)
      (Scanner.formula env₂) :=
    .formula (Coupling.alike_respects h _)
      (.inl ⟨h.maxDepth, congrArg EvalError.tooDeep h.maxDepth⟩)
  have hout := hlock (.facing 0 text.toList 0 h₁) (.facing 0 text.toList 0 h₂)
    ⟨rfl, rfl, List.suffix_rfl, hhosts⟩
  dsimp only
  rw [Evaluator.eval_eq, Evaluator.eval_eq]
  obtain ⟨x, t₁, t₂, hrun₁, hrun₂, hleft⟩ | ⟨e, t₁, t₂, hrun₁, hrun₂, hleft⟩ := hout.eq_of_alike
  · rw [hrun₁, hrun₂]
    exact ⟨rfl, hleft⟩
  · rw [hrun₁, hrun₂]
    exact ⟨rfl, hleft⟩

end Formula
