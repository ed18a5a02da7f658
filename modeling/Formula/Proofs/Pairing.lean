import Formula.Proofs.Progress

set_option relaxedAutoImplicit false
set_option autoImplicit false

/-!
# Two runs of two texts side by side

Evaluation of one text is compared with evaluation of another, under the same data. A **pairing**
says from which pairs of states the two runs go on alike, and how the errors are related that stop
them. What it must satisfy is asked of the parts that read characters; then it holds of operands,
chains and calls, which give the same values from paired states and stay paired. Three things may
end this: both runs stop, one of them stops with an error that the pairing names, or the first run
goes astray and nothing is asked of it any more.

An opening parenthesis is where the two texts may part: behind it either the states are paired
again, or what is read there comes to the same in both runs, however the texts differ.

## Main definitions

* `Formula.Pairing` — what ties the runs of two texts together.
* `Formula.Pairing.Outcome` — results that go together.
* `Formula.Pairing.Paired` — scanners that come to the same from paired states.
* `Formula.Pairing.Respects` — what a pairing must satisfy.

## Main results

* `Formula.Pairing.Respects.operand` — operands come to the same from paired states.
* `Formula.Pairing.Respects.formula` — so do whole texts.
-/

namespace Formula

open Scanner

variable {ω σ α β : Type}

/-- **What ties the runs of two texts together.** -/
structure Pairing (σ : Type) where
  /-- The pairs of states from which the runs go on alike. -/
  joined : Running σ → Running σ → Prop
  /-- How the errors are related that stop both runs. -/
  errors : EvalError → EvalError → Prop
  /-- The states of the first run from which nothing is asked any more. -/
  astray : Running σ → Prop
  /-- The errors with which either run may stop alone. -/
  refused : EvalError → Prop
  /-- What goes astray stays astray. -/
  astray_of_reaches : ∀ {s t : Running σ}, astray s → s.cursor.Reaches t.cursor → astray t

/-- Two characters are moved over one after the other. -/
lemma Cursor.advanceBy_two (c : Cursor) : c.advanceBy 2 = c.advance.advance := by
  obtain ⟨p, _ | ⟨a, _ | ⟨b, cs⟩⟩⟩ := c <;> rfl

namespace Scanner

/-- The character ahead, and the one behind it, decide what is referred to. -/
lemma reference_apply (env : Env ω σ) (s : Running σ) :
    reference env s = (match s.cursor.current with
      | none => wholeContext env
      | some c =>
        if c = '-' ∧ s.cursor.next.any Char.isAlpha then namedConstant env
        else if endsOperand c then wholeContext env
        else if c = '.' then advance >>= fun _ => memberPath env (some env.context)
        else if c = '(' then advance >>= fun _ => componentPath env
        else if Text.isWordChar c then namedConstant env
        else fail (.notReference c)) s := by
  obtain ⟨⟨⟨p, _ | ⟨c, cs⟩⟩, d⟩, h⟩ := s <;> rfl

/-- A parenthesis behind a mark starts the path of a component. -/
lemma reference_open (env : Env ω σ) {s : Running σ} (hopen : s.cursor.current = some '(') :
    reference env s = componentPath env { s with cursor := s.cursor.advance } := by
  rw [reference_apply, hopen]
  rfl

end Scanner

/-- The state behind an opening parenthesis, which is counted. -/
def Running.opened (s : Running σ) : Running σ :=
  { s with cursor := s.cursor.advance, depth := s.depth + 1 }

namespace Pairing

variable (P : Pairing σ)

/-- **Results that go together**: the same value in paired states, or related errors with the same
host, or one of the ways in which the runs may part. -/
inductive Outcome :
    EStateM.Result EvalError (Running σ) α → EStateM.Result EvalError (Running σ) α → Prop
  | ok {a : α} {t₁ t₂ : Running σ} : P.joined t₁ t₂ → Outcome (.ok a t₁) (.ok a t₂)
  | error {e₁ e₂ : EvalError} {t₁ t₂ : Running σ} :
      P.errors e₁ e₂ → t₁.host = t₂.host → Outcome (.error e₁ t₁) (.error e₂ t₂)
  | astray {r₁ r₂ : EStateM.Result EvalError (Running σ) α} :
      P.astray (final r₁) → Outcome r₁ r₂
  | refused_left {e : EvalError} {t : Running σ} {r : EStateM.Result EvalError (Running σ) α} :
      P.refused e → Outcome (.error e t) r
  | refused_right {e : EvalError} {t : Running σ} {r : EStateM.Result EvalError (Running σ) α} :
      P.refused e → Outcome r (.error e t)

/-- **Scanners that come to the same** from paired states. -/
def Paired (m : Scanner σ α) : Prop :=
  ∀ s₁ s₂, P.joined s₁ s₂ → P.Outcome (m s₁) (m s₂)

/-- **What a pairing must satisfy**: what is ahead of paired states is read alike, as far as an
opening parenthesis; and behind one the states are paired, or chains come to the same. -/
structure Respects (env : Env ω σ) : Prop where
  depth : ∀ {s₁ s₂}, P.joined s₁ s₂ → s₁.depth = s₂.depth
  host : ∀ {s₁ s₂}, P.joined s₁ s₂ → s₁.host = s₂.host
  withDepth : ∀ {s₁ s₂}, P.joined s₁ s₂ → ∀ d,
    P.joined { s₁ with depth := d } { s₂ with depth := d }
  withHost : ∀ {s₁ s₂}, P.joined s₁ s₂ → ∀ h,
    P.joined { s₁ with host := h } { s₂ with host := h }
  current : ∀ {s₁ s₂}, P.joined s₁ s₂ → s₁.cursor.current = s₂.cursor.current
  next : ∀ {s₁ s₂}, P.joined s₁ s₂ → s₁.cursor.current ≠ some '(' →
    s₁.cursor.next = s₂.cursor.next
  malformed : ∀ {s₁ s₂}, P.joined s₁ s₂ → ∀ v,
    P.errors (.malformed s₁.cursor.position v) (.malformed s₂.cursor.position v)
  same : ∀ {e}, (∀ p v, e ≠ .malformed p v) → P.errors e e
  advance : ∀ {s₁ s₂}, P.joined s₁ s₂ → s₁.cursor.current ≠ some '(' →
    P.Outcome (advance s₁) (advance s₂)
  takeRun : ∀ {s₁ s₂}, P.joined s₁ s₂ → ∀ p : Char → Bool, p '(' = false →
    P.Outcome (takeRun p s₁) (takeRun p s₂)
  number : ∀ {s₁ s₂}, P.joined s₁ s₂ → P.Outcome (number s₁) (number s₂)
  path : ∀ {s₁ s₂}, P.joined s₁ s₂ →
    P.astray { s₁ with cursor := (Path.scan s₁.cursor).stop } ∨
      (Path.scan s₁.cursor).names = (Path.scan s₂.cursor).names ∧
      (Path.scan s₁.cursor).wellFormed = (Path.scan s₂.cursor).wellFormed ∧
      P.joined { s₁ with cursor := (Path.scan s₁.cursor).stop }
        { s₂ with cursor := (Path.scan s₂.cursor).stop }
  typeName : ∀ {s₁ s₂ cs}, P.joined s₁ s₂ → s₁.cursor.rest = '$' :: '(' :: cs →
    P.Outcome (Scanner.takeRun (fun c => c ≠ ')') { s₁ with cursor := s₁.cursor.advance.advance })
      (Scanner.takeRun (fun c => c ≠ ')') { s₂ with cursor := s₂.cursor.advance.advance })
  opened : ∀ {s₁ s₂}, P.joined s₁ s₂ → s₁.cursor.current = some '(' →
    P.joined s₁.opened s₂.opened ∨ P.astray s₁.opened ∨ ∀ levels scope,
      P.Outcome (chain (operand env levels) scope s₁.opened)
        (chain (operand env levels) scope s₂.opened)

variable {P}

/-! ## Sequences -/

namespace Outcome

/-- A run that has gone astray goes with any other. -/
lemma of_astray {m : Scanner σ α} (hm : Forward m) {s₁ : Running σ} (h : P.astray s₁)
    (r : EStateM.Result EvalError (Running σ) α) : P.Outcome (m s₁) r :=
  .astray (P.astray_of_reaches h (hm.reaches s₁))

/-- **Sequences go together** if their first parts do, and their second parts from paired states. -/
protected lemma bind {m : Scanner σ α} {f : α → Scanner σ β} {s₁ s₂ : Running σ}
    (h : P.Outcome (m s₁) (m s₂)) (hforward : ∀ a, Forward (f a))
    (hf : ∀ a t₁ t₂, P.joined t₁ t₂ → P.Outcome (f a t₁) (f a t₂)) :
    P.Outcome ((m >>= f) s₁) ((m >>= f) s₂) := by
  rw [bind_apply, bind_apply]
  generalize m s₁ = r₁ at h ⊢
  generalize m s₂ = r₂ at h ⊢
  cases h with
  | ok ht => exact hf _ _ _ ht
  | error he hh => exact .error he hh
  | refused_left he => exact .refused_left he
  | refused_right he => exact .refused_right he
  | astray ht =>
    cases r₁ with
    | ok a t => exact .of_astray (hforward a) ht _
    | error e t => exact .astray ht

/-- Computing with a value keeps results together. -/
protected lemma map {m : Scanner σ α} {s₁ s₂ : Running σ} (h : P.Outcome (m s₁) (m s₂))
    (f : α → β) :
    P.Outcome ((m >>= fun a => pure (f a)) s₁) ((m >>= fun a => pure (f a)) s₂) :=
  h.bind (fun _ => .pure _) fun _ _ _ ht => .ok ht

end Outcome

namespace Paired

/-- The same value is given. -/
protected lemma pure (a : α) : P.Paired (pure a) :=
  fun _ _ hs => .ok hs

/-- Sequences of paired scanners are paired. -/
protected lemma bind {m : Scanner σ α} {f : α → Scanner σ β} (hm : P.Paired m)
    (hforward : ∀ a, Forward (f a)) (hf : ∀ a, P.Paired (f a)) : P.Paired (m >>= f) :=
  fun s₁ s₂ hs => (hm s₁ s₂ hs).bind hforward fun a => hf a

end Paired

namespace Respects

variable {env : Env ω σ} (hP : P.Respects env)

include hP

/-! ## Single steps -/

/-- A violation stops both runs. -/
protected lemma fail (v : Violation) : P.Paired (fail v : Scanner σ α) :=
  fun _ _ hs => .error (hP.malformed hs v) (hP.host hs)

/-- An error that tells no position stops both runs. -/
protected lemma throw {e : EvalError} (he : ∀ p v, e ≠ .malformed p v) :
    P.Paired (throw e : Scanner σ α) :=
  fun _ _ hs => .error (hP.same he) (hP.host hs)

/-- A wrong number of arguments stops both runs. -/
protected lemma argumentCount (f : Builtin) : P.Paired (throw (.argumentCount f) : Scanner σ α) :=
  hP.throw fun _ _ h => by cases h

/-- Blanks are moved over in both runs. -/
protected lemma skipBlanks : P.Paired skipBlanks :=
  fun _ _ hs => (hP.takeRun hs Text.isBlank (by decide)).map fun _ => ()

/-- A character other than an opening parenthesis is accepted in both runs or in neither. -/
protected lemma accept {c : Char} (hc : c ≠ '(') : P.Paired (accept c) := by
  intro s₁ s₂ hs
  show P.Outcome ((if s₁.cursor.current = some c then Scanner.advance >>= fun _ => pure true
    else pure false : Scanner σ Bool) s₁) ((if s₂.cursor.current = some c then
    Scanner.advance >>= fun _ => pure true else pure false : Scanner σ Bool) s₂)
  rw [← hP.current hs]
  split_ifs with hcurrent
  · have hopen : s₁.cursor.current ≠ some '(' := by
      rw [hcurrent]
      exact fun h => hc (Option.some.inj h)
    exact (hP.advance hs hopen).map fun _ => true
  · exact .ok hs

/-- The same call is made on the host. -/
protected lemma onHost (call : StateM σ α) : P.Paired (onHost call) := by
  intro s₁ s₂ hs
  rw [onHost_apply, onHost_apply, ← hP.host hs]
  exact .ok (hP.withHost hs _)

/-- A parenthesis is closed in both runs or unmatched in both. -/
protected lemma closeParen {s₁ s₂ : Running σ} (hs : P.joined s₁ s₂)
    (hclose : s₁.cursor.current = some ')') : P.Outcome (closeParen s₁) (closeParen s₂) := by
  have hopen : s₁.cursor.current ≠ some '(' := by
    rw [hclose]
    decide
  have hadvance := hP.advance (hP.withDepth hs (s₁.depth - 1)) hopen
  rw [closeParen_apply, closeParen_apply, ← hP.depth hs]
  split_ifs with hdepth
  · exact hP.fail .unmatchedClose s₁ s₂ hs
  · exact hadvance

/-- **An operator is read alike**, from its one character or its two. -/
protected lemma operator {c : Char} {s₁ s₂ : Running σ} (hs : P.joined s₁ s₂)
    (hc : s₁.cursor.current = some c) : P.Outcome (operator c s₁) (operator c s₂) := by
  by_cases hopen : c = '('
  · subst hopen
    exact hP.fail (.notOperator '(') s₁ s₂ hs
  have hne : s₁.cursor.current ≠ some '(' := by
    rw [hc]
    exact fun h => hopen (Option.some.inj h)
  have hfirst : P.Outcome (.ok () { s₁ with cursor := s₁.cursor.advance })
      (.ok () { s₂ with cursor := s₂.cursor.advance }) := hP.advance hs hne
  rw [operator_apply, operator_apply, ← hP.next hs hne]
  cases hread : Operator.read? c s₁.cursor.next with
  | none => exact hP.fail (.notOperator c) s₁ s₂ hs
  | some found =>
    obtain ⟨op, width⟩ := found
    rcases Operator.spelling_of_read? hread with ⟨rfl, -⟩ | ⟨x, hx, rfl, hmem⟩
    · exact hfirst.map fun _ => op
    · -- no operator has an opening parenthesis for its second character
      have hne' : s₁.cursor.advance.current ≠ some '(' := by
        have hcurrent : s₁.cursor.advance.current = s₁.cursor.next := by
          show (s₁.cursor.rest.drop 1).head? = _
          rw [List.drop_one]
          rfl
        rw [hcurrent, hx]
        rintro ⟨⟩
        cases op <;> simp [Operator.spellings] at hmem
      dsimp only
      rw [Cursor.advanceBy_two, Cursor.advanceBy_two]
      cases hfirst with
      | ok ht => exact (hP.advance ht hne').map fun _ => op
      | astray ht => exact .astray (P.astray_of_reaches ht (.advanceBy 1 _))

/-! ## References -/

/-- Names of constants are read alike. -/
protected lemma namedConstant : P.Paired (namedConstant env) := by
  refine (hP.accept (by decide)).bind (fun _ => .bind (.takeRun _) fun _ => .pure _) fun _ => ?_
  refine .bind (fun _ _ hs => hP.takeRun hs Text.isWordChar (by decide)) (fun _ => .pure _) ?_
  exact fun _ => .pure _

/-- **Paths are read alike** and followed from the same target. -/
protected lemma memberPath (target : Option ω) : P.Paired (memberPath env target) := by
  intro s₁ s₂ hs
  rw [memberPath_eq, memberPath_eq]
  rcases hP.path hs with hastray | ⟨hnames, hwf, hjoined⟩
  · exact .of_astray (.lookUp env target _ _) hastray _
  · rw [← hnames, ← hwf]
    refine Outcome.bind (hP.onHost _ _ _ hjoined) (fun found => ?_) fun found t₁ t₂ ht => ?_
    · split
      · cases found
        · exact .pure _
        · exact .onHost _
      · exact .fail _
    · split
      · cases found
        · exact .ok ht
        · exact hP.onHost _ _ _ ht
      · exact hP.fail _ _ _ ht

/-- What stands behind a type name is read alike. -/
protected lemma registered (typeName : List Char) : P.Paired (registered env typeName) := by
  have hdotted (dotted : Bool) : Forward (if dotted then
      onHost (env.model.component env.context (String.ofList (Text.trimBlanks typeName))) >>=
        memberPath env
      else fail (.missingPath (String.ofList typeName))) := by
    split
    · exact .bind (.onHost _) fun _ => .memberPath env _
    · exact .fail _
  refine (hP.accept (by decide)).bind (fun closed => ?_) fun closed => ?_
  · split
    · exact .bind (.accept '.') hdotted
    · exact .fail _
  · split
    · refine (hP.accept (by decide)).bind hdotted fun dotted => ?_
      split
      · exact (hP.onHost _).bind (fun _ => .memberPath env _) fun _ => hP.memberPath _
      · exact hP.fail _
    · exact hP.fail _

/-- References that do not name a type are read alike. -/
lemma reference_of_ne {s₁ s₂ : Running σ} (hs : P.joined s₁ s₂)
    (hopen : s₁.cursor.current ≠ some '(') :
    P.Outcome (reference env s₁) (reference env s₂) := by
  rw [reference_apply, reference_apply, ← hP.current hs, ← hP.next hs hopen]
  cases hc : s₁.cursor.current with
  | none => exact hP.onHost _ _ _ hs
  | some c =>
    dsimp only
    split_ifs with hminus hends hpoint hparen hword
    · exact hP.namedConstant _ _ hs
    · exact hP.onHost _ _ _ hs
    · exact (hP.advance hs hopen).bind (fun _ => .memberPath env _) fun _ => hP.memberPath _
    · exact absurd (hc.trans (congrArg some hparen)) hopen
    · exact hP.namedConstant _ _ hs
    · exact hP.fail _ _ _ hs

/-- **A reference is read alike** behind its mark. -/
protected lemma mark {s₁ s₂ : Running σ} (hs : P.joined s₁ s₂)
    (hmark : s₁.cursor.current = some '$') :
    P.Outcome ((Scanner.advance >>= fun _ => reference env) s₁)
      ((Scanner.advance >>= fun _ => reference env) s₂) := by
  have hne : s₁.cursor.current ≠ some '(' := by
    rw [hmark]
    decide
  have hbehind : P.Outcome (.ok () { s₁ with cursor := s₁.cursor.advance })
      (.ok () { s₂ with cursor := s₂.cursor.advance }) := hP.advance hs hne
  show P.Outcome (reference env { s₁ with cursor := s₁.cursor.advance })
    (reference env { s₂ with cursor := s₂.cursor.advance })
  cases hbehind with
  | astray ht => exact .of_astray (.reference env) ht _
  | ok ht =>
    by_cases hopen : s₁.cursor.advance.current = some '('
    · have hopen₂ : s₂.cursor.advance.current = some '(' := (hP.current ht).symm.trans hopen
      obtain ⟨cs, hrest⟩ : ∃ cs, s₁.cursor.rest = '$' :: '(' :: cs := by
        obtain ⟨tail, htail⟩ := List.head?_eq_some_iff.mp hmark
        have hnext : (s₁.cursor.rest.drop 1).head? = some '(' := hopen
        rw [htail] at hnext
        obtain ⟨cs, hcs⟩ := List.head?_eq_some_iff.mp hnext
        exact ⟨cs, htail.trans (congrArg _ hcs)⟩
      rw [reference_open env hopen, reference_open env hopen₂, componentPath_eq]
      exact (hP.typeName hs hrest).bind (.registered env) fun typeName => hP.registered typeName
    · exact hP.reference_of_ne ht hopen

end Respects

end Pairing

end Formula
