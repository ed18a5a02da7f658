import Formula.Proofs.Lockstep

set_option relaxedAutoImplicit false
set_option autoImplicit false

/-!
# Couplings of runs

Two couplings under which evaluation runs in lockstep. The first lets the data of the two runs
differ in everything, so that only what does not depend on the data is kept: where the cursor
stands, and which error stops the run. The second keeps the runs identical, for data that agree on
the references and functions that the text names.

## Main definitions

* `Formula.Coupling.Refers` — what the data of two runs must satisfy for references.
* `Formula.Coupling.free` — the coupling that allows any data.
* `Formula.Coupling.same` — the coupling of runs that stay identical.

## Main results

* `Formula.Coupling.Lockstep.reference` — references to related objects are read in lockstep.
* `Formula.Coupling.free_respects`, `Formula.Coupling.same_respects` — the data of the two
  couplings.
* `Formula.Scanner.operand_suffix` — operands are read forward.
-/

namespace Formula

variable {ω₁ ω₂ σ₁ σ₂ α₁ α₂ : Type}

/-- The number of an object that may be absent. -/
def Scanner.numberOf {ω σ : Type} (env : Env ω σ) : Option ω → Scanner σ Float
  | some object => onHost (env.model.number object)
  | none => pure 0.0

namespace Coupling

/-! ## References to related objects -/

/-- **What the data of two runs must satisfy for references** to be read in lockstep: the objects
that they come upon, or the lack of them, stay related by a relation of one's choice. -/
structure Refers (C : Coupling σ₁ σ₂) (objects : Option ω₁ → Option ω₂ → Prop)
    (env₁ : Env ω₁ σ₁) (env₂ : Env ω₂ σ₂) : Prop where
  context : objects (some env₁.context) (some env₂.context)
  component : ∀ name, C.Lockstep objects
    (Scanner.onHost (env₁.model.component env₁.context name))
    (Scanner.onHost (env₂.model.component env₂.context name))
  follow : ∀ {target₁ target₂} names, objects target₁ target₂ → C.Lockstep objects
    (Scanner.onHost (env₁.model.follow target₁ names))
    (Scanner.onHost (env₂.model.follow target₂ names))
  number : ∀ {found₁ found₂}, objects found₁ found₂ →
    C.Lockstep C.values (Scanner.numberOf env₁ found₁) (Scanner.numberOf env₂ found₂)
  constant : ∀ name,
    C.values ((constant? name env₁.tick).getD 0.0) ((constant? name env₂.tick).getD 0.0)
  violation : ∀ position v, C.errors (.malformed position v) (.malformed position v)

namespace Lockstep

variable {C : Coupling σ₁ σ₂} {objects : Option ω₁ → Option ω₂ → Prop} {env₁ : Env ω₁ σ₁}
  {env₂ : Env ω₂ σ₂}

/-- Names of constants are read in lockstep. -/
protected lemma namedConstant (hC : C.Refers objects env₁ env₂) :
    C.Lockstep C.values (Scanner.namedConstant env₁) (Scanner.namedConstant env₂) := by
  refine .bind (.accept '-') ?_
  rintro negative _ rfl
  refine .bind (.takeRun Text.isWordChar) ?_
  rintro name _ ⟨rfl, -⟩
  exact .pure (hC.constant _)

/-- **Paths are read in lockstep** from related targets: the whole path is scanned before anything
is looked up. -/
protected lemma memberPath (hC : C.Refers objects env₁ env₂) {target₁ : Option ω₁}
    {target₂ : Option ω₂} (htarget : objects target₁ target₂) :
    C.Lockstep C.values (Scanner.memberPath env₁ target₁) (Scanner.memberPath env₂ target₂) := by
  intro s₁ s₂ hs
  rw [Scanner.memberPath_apply, Scanner.memberPath_apply, ← hs.cursor]
  have hbehind : C.Joined { s₁ with cursor := (Path.scan s₁.cursor).stop }
      { s₂ with cursor := (Path.scan s₁.cursor).stop } :=
    ⟨rfl, hs.depth, (Path.stop_suffix _).trans hs.suffix, hs.hosts⟩
  refine Lockstep.bind (hC.follow _ htarget) (fun found₁ found₂ hfound => ?_) _ _ hbehind
  split
  · exact hC.number hfound
  · exact .violation fun _ => hC.violation _ _

/-- Paths of components are read in lockstep. -/
protected lemma componentPath (hC : C.Refers objects env₁ env₂) :
    C.Lockstep C.values (Scanner.componentPath env₁) (Scanner.componentPath env₂) := by
  refine .bind (.takeRun _) ?_
  rintro typeName _ ⟨rfl, -⟩
  refine .bind (.accept ')') ?_
  rintro closed _ rfl
  cases closed with
  | false => exact .violation fun _ => hC.violation _ _
  | true =>
    refine .bind (.accept '.') ?_
    rintro dotted _ rfl
    cases dotted with
    | false => exact .violation fun _ => hC.violation _ _
    | true => exact .bind (hC.component _) fun _ _ hfound => .memberPath hC hfound

/-- **References are read in lockstep**: the character behind the mark is the same in both runs, and
decides what is referred to. -/
protected lemma reference (hC : C.Refers objects env₁ env₂) :
    C.Lockstep C.values (Scanner.reference env₁) (Scanner.reference env₂) := by
  have hwhole : C.Lockstep C.values (Scanner.wholeContext env₁) (Scanner.wholeContext env₂) :=
    hC.number hC.context
  refine .bind .current ?_
  rintro (_ | c) _ rfl
  · exact hwhole
  · refine .bind .next ?_
    rintro following _ rfl
    split_ifs
    · exact .namedConstant hC
    · exact hwhole
    · exact .bind .advance fun _ _ _ => .memberPath hC hC.context
    · exact .bind .advance fun _ _ _ => .componentPath hC
    · exact .namedConstant hC
    · exact .violation fun _ => hC.violation _ _

end Lockstep

/-! ## Runs that need not agree on any data -/

/-- **The coupling that allows any data**: values and hosts need not be related, and errors as far
as one pleases. -/
def free (σ₁ σ₂ : Type) (text : List Char) (errors : EvalError → EvalError → Prop) :
    Coupling σ₁ σ₂ where
  text := text
  hosts _ _ := True
  values _ _ := True
  errors := errors
  escapes _ := False

/-- Errors other than those of a limit are related to themselves. -/
def KeepsErrors (errors : EvalError → EvalError → Prop) : Prop :=
  ∀ {e}, (∀ limit, e ≠ .tooDeep limit) → errors e e

section Free

variable {text : List Char} {errors : EvalError → EvalError → Prop} (herrors : KeepsErrors errors)

/-- Calls on any two hosts are made in lockstep when nothing is asked of their values. -/
protected lemma Lockstep.onHost_free (call₁ : StateM σ₁ α₁) (call₂ : StateM σ₂ α₂) :
    (free σ₁ σ₂ text errors).Lockstep (fun _ _ => True) (Scanner.onHost call₁)
      (Scanner.onHost call₂) :=
  .onHost fun _ _ _ => ⟨trivial, trivial⟩

include herrors in
/-- Any data will do for references, whether or not the objects are there. -/
lemma free_refers (env₁ : Env ω₁ σ₁) (env₂ : Env ω₂ σ₂) :
    (free σ₁ σ₂ text errors).Refers (fun _ _ => True) env₁ env₂ where
  context := trivial
  component _ := .onHost_free _ _
  follow _ _ := .onHost_free _ _
  number {found₁ found₂} _ := by
    -- one run may have found what the other has not, which only the value tells
    cases found₁ <;> cases found₂
    · exact .pure trivial
    · exact fun u₁ u₂ hu => .ok trivial ⟨hu.cursor, hu.depth, hu.suffix, trivial⟩
    · exact fun u₁ u₂ hu => .ok trivial ⟨hu.cursor, hu.depth, hu.suffix, trivial⟩
    · exact .onHost_free _ _
  constant _ := trivial
  violation _ _ := herrors (EvalError.malformed_ne_tooDeep _ _)

include herrors in
/-- **References are read in lockstep**, whatever they refer to. -/
protected lemma Lockstep.reference_free (env₁ : Env ω₁ σ₁) (env₂ : Env ω₂ σ₂) :
    (free σ₁ σ₂ text errors).Lockstep (fun _ _ => True) (Scanner.reference env₁)
      (Scanner.reference env₂) :=
  .reference (free_refers herrors env₁ env₂)

include herrors in
/-- Any data satisfy what the coupling that allows any data asks for. -/
lemma free_respects (env₁ : Env ω₁ σ₁) (env₂ : Env ω₂ σ₂) :
    (free σ₁ σ₂ text errors).Respects env₁ env₂ where
  refl _ := trivial
  neg _ := trivial
  apply _ _ _ _ _ _ _ := trivial
  reference hs _ := Lockstep.reference_free herrors env₁ env₂ _ _ hs
  call := by
    intro f name args₁ args₂ h₁ h₂ _ _ hargs _
    -- a call succeeds or not by the number of its arguments
    have hsome₁ := f.call_isSome_iff env₁.random args₁ h₁
    have hsome₂ := f.call_isSome_iff env₂.random args₂ h₂
    have hadmits : f.arity.admits args₁ = f.arity.admits args₂ := by
      cases hargs <;> cases f.arity <;> rfl
    refine ⟨?_, trivial⟩
    rw [hadmits, ← hsome₂] at hsome₁
    simp only [StateT.run] at hsome₁
    generalize (f.call env₁.random args₁ h₁).1 = r₁ at hsome₁ ⊢
    generalize (f.call env₂.random args₂ h₂).1 = r₂ at hsome₁ ⊢
    cases r₁ <;> cases r₂
    · exact .none
    · simp at hsome₁
    · simp at hsome₁
    · exact .some trivial
  errors := herrors

end Free

/-! ## Runs from the same state -/

/-- **The coupling of two runs from the same state** that give the same values. -/
def same (σ : Type) (text : List Char) (errors : EvalError → EvalError → Prop)
    (escapes : EvalError → Prop) : Coupling σ σ where
  text := text
  hosts := Eq
  values := Eq
  errors := errors
  escapes := escapes

section Same

variable {σ : Type} {text : List Char} {errors : EvalError → EvalError → Prop}
  {escapes : EvalError → Prop}

/-- States coupled by sameness are the same. -/
lemma Joined.eq {s₁ s₂ : Running σ} (h : (same σ text errors escapes).Joined s₁ s₂) : s₁ = s₂ := by
  obtain ⟨⟨c₁, d₁⟩, h₁⟩ := s₁
  obtain ⟨⟨c₂, d₂⟩, h₂⟩ := s₂
  obtain rfl : c₁ = c₂ := h.cursor
  obtain rfl : d₁ = d₂ := h.depth
  obtain rfl : h₁ = h₂ := h.hosts
  rfl

/-- **Data that agree where the text asks**: the references that the text makes come to the same,
and the functions that it names compute the same.

**Proof sketch.** A reference that comes to the same outcome in both runs leaves an end of the text
ahead, as any two runs of it do under the coupling that allows any data. -/
lemma same_respects (herrors : KeepsErrors errors) {env₁ : Env ω₁ σ} {env₂ : Env ω₂ σ}
    (href : ∀ s : Running σ, '$' :: s.cursor.rest <:+ text →
      Scanner.reference env₁ s = Scanner.reference env₂ s)
    (hcall : ∀ (f : Builtin) (name : List Char), name <:+: text →
      String.ofList (Text.lower name) = f.name → f.call env₁.random = f.call env₂.random) :
    (same σ text errors escapes).Respects env₁ env₂ where
  refl _ := rfl
  neg h := congrArg _ h
  apply op _ _ _ _ h h' := congrArg₂ op.apply h h'
  reference := by
    intro s₁ s₂ hs hmark
    obtain rfl := hs.eq
    have hfree : (free σ σ text errors).Outcome (fun _ _ => True) _ _ :=
      Lockstep.reference_free herrors env₁ env₁ s₁ s₁ ⟨rfl, rfl, hs.suffix, trivial⟩
    rw [← href s₁ hmark]
    generalize Scanner.reference env₁ s₁ = r at hfree ⊢
    cases r with
    | ok x t =>
      cases hfree with
      | ok _ ht => exact .ok rfl ⟨rfl, rfl, ht.suffix, rfl⟩
    | error e t =>
      cases hfree with
      | error he ht => exact .error he ⟨rfl, rfl, ht.suffix, rfl⟩
      | escape he => exact he.elim
  call := by
    intro f name args₁ args₂ h₁ h₂ hname hf hargs hhosts
    obtain rfl : args₁ = args₂ := by
      cases hargs with
      | one h => rw [h]
      | two h h' => rw [h, h']
    obtain rfl : h₁ = h₂ := hhosts
    rw [hcall f name hname hf]
    refine ⟨?_, rfl⟩
    cases (f.call env₂.random args₁ h₁).1
    · exact .none
    · exact .some rfl
  errors := herrors

end Same

end Coupling

/-- **An operand is read forward**: what is left of the text is an end of what was ahead.

**Proof sketch.** Two equal runs under the coupling that allows any data: coupled outcomes leave
ends of the text ahead, and the text may be taken to be what was ahead. -/
theorem Scanner.operand_suffix {ω σ : Type} (env : Env ω σ) (levels : Nat) {s t : Running σ}
    {x : Float} (h : operand env levels s = .ok x t) : t.cursor.rest <:+ s.cursor.rest := by
  have hC : (Coupling.free σ σ s.cursor.rest Eq).Respects env env :=
    Coupling.free_respects (fun _ => rfl) env env
  have hlock : (Coupling.free σ σ s.cursor.rest Eq).Lockstep _ (operand env levels)
      (operand env levels) := .operand hC (.inl ⟨rfl, rfl⟩)
  have hout := hlock s s ⟨rfl, rfl, List.suffix_rfl, trivial⟩
  rw [h] at hout
  cases hout with
  | ok _ ht => exact ht.suffix

end Formula
