import Formula.Proofs.Run

set_option relaxedAutoImplicit false
set_option autoImplicit false

/-!
# Two runs of one text in lockstep

Evaluation is compared with itself under other data: another context, model, clock sample, source
of random numbers, or limit. A **coupling** says what may differ between the two runs. Everything
that decides how evaluation goes on, the cursor and the number of open parentheses, is kept equal;
so whatever the coupling allows values, hosts and errors to differ in, both runs take the same
branches. The first run alone may stop early, with an error that the coupling names.

## Main definitions

* `Formula.Coupling` — what ties two runs together.
* `Formula.Coupling.Lockstep` — two scanners that keep coupled states coupled.
* `Formula.Coupling.Respects` — what the data of two runs must satisfy.

## Main results

* `Formula.Coupling.Lockstep.operand` — operands are read in lockstep.
* `Formula.Coupling.Lockstep.formula` — whole texts are read in lockstep.
-/

namespace Formula

/-! ## What is left of a text -/

/-- The rest of a literal stops at an end of what lies ahead. -/
lemma Literal.suffix_scanFrom (inFraction : Bool) (l : Literal) (p : Nat) (cs : List Char) :
    (scanFrom inFraction l p cs).stop.rest <:+ cs := by
  induction cs generalizing inFraction l p with
  | nil => exact List.suffix_rfl
  | cons c cs ih =>
    have hstop : ∀ inFraction l p, (scanFrom inFraction l p cs).stop.rest <:+ c :: cs :=
      fun inFraction l p => (ih inFraction l p).trans (List.suffix_cons c cs)
    simp only [scanFrom]
    split_ifs <;> first | exact hstop _ _ _ | exact List.suffix_rfl

/-- The scan of a literal stops at an end of the text. -/
lemma Literal.stop_suffix (cursor : Cursor) : (Literal.scan cursor).stop.rest <:+ cursor.rest :=
  suffix_scanFrom _ _ _ _

/-- A path ends where its last name ends, which may be missing. -/
lemma Path.stop_close (seen : List Char) (stop : Cursor) :
    (scanFrom.close seen stop).stop = stop := by
  unfold scanFrom.close
  split <;> rfl

/-- The rest of a path stops at an end of what lies ahead. -/
lemma Path.suffix_scanFrom (seen : List Char) (p : Nat) (cs : List Char) :
    (scanFrom seen p cs).stop.rest <:+ cs := by
  induction cs generalizing seen p with
  | nil => simp [scanFrom, stop_close]
  | cons c cs ih =>
    simp only [scanFrom]
    split_ifs
    · exact (ih _ _).trans (List.suffix_cons c cs)
    · exact (ih _ _).trans (List.suffix_cons c cs)
    · simp [stop_close]

/-- The scan of a path stops at an end of the text. -/
lemma Path.stop_suffix (cursor : Cursor) : (Path.scan cursor).stop.rest <:+ cursor.rest :=
  suffix_scanFrom _ _ _

variable {ω₁ ω₂ σ₁ σ₂ α₁ α₂ β₁ β₂ : Type}

/-- **What ties two runs together.** -/
structure Coupling (σ₁ σ₂ : Type) where
  /-- The text that both runs read; what lies ahead is always an end of it. -/
  text : List Char
  /-- How the hosts' states are related. -/
  hosts : σ₁ → σ₂ → Prop
  /-- How values are related. -/
  values : Float → Float → Prop
  /-- How the errors of two runs that stop together are related. -/
  errors : EvalError → EvalError → Prop
  /-- The errors with which the first run may stop alone. -/
  escapes : EvalError → Prop

namespace Coupling

variable (C : Coupling σ₁ σ₂)

/-- **Coupled states**: the same cursor, the same number of open parentheses, related hosts. -/
structure Joined (s₁ : Running σ₁) (s₂ : Running σ₂) : Prop where
  cursor : s₁.cursor = s₂.cursor
  depth : s₁.depth = s₂.depth
  suffix : s₁.cursor.rest <:+ C.text
  hosts : C.hosts s₁.host s₂.host

/-- **Coupled outcomes**: both runs give related values, both stop with related errors, or the
first one stops with an error that it may stop with alone. -/
inductive Outcome (R : α₁ → α₂ → Prop) :
    EStateM.Result EvalError (Running σ₁) α₁ → EStateM.Result EvalError (Running σ₂) α₂ → Prop
  | ok {a₁ : α₁} {a₂ : α₂} {t₁ : Running σ₁} {t₂ : Running σ₂} :
      R a₁ a₂ → C.Joined t₁ t₂ → Outcome R (.ok a₁ t₁) (.ok a₂ t₂)
  | error {e₁ e₂ : EvalError} {t₁ : Running σ₁} {t₂ : Running σ₂} :
      C.errors e₁ e₂ → C.Joined t₁ t₂ → Outcome R (.error e₁ t₁) (.error e₂ t₂)
  | escape {e : EvalError} {t₁ : Running σ₁} {r : EStateM.Result EvalError (Running σ₂) α₂} :
      C.escapes e → Outcome R (.error e t₁) r

/-- **Scanners in lockstep**: from coupled states they come to coupled outcomes. -/
def Lockstep (R : α₁ → α₂ → Prop) (m₁ : Scanner σ₁ α₁) (m₂ : Scanner σ₂ α₂) : Prop :=
  ∀ s₁ s₂, C.Joined s₁ s₂ → C.Outcome R (m₁ s₁) (m₂ s₂)

/-- Related arguments of a call: equally many, with related values. -/
inductive Args : Arguments → Arguments → Prop
  | one {x y : Float} : C.values x y → Args (.one x) (.one y)
  | two {x y x' y' : Float} : C.values x y → C.values x' y' → Args (.two x x') (.two y y')

/-- **What the data of two runs must satisfy** under a coupling: values stay related under the
operations of a formula, references and calls that occur in the text come to coupled outcomes, and
errors other than that of the limit are related to themselves. -/
structure Respects (env₁ : Env ω₁ σ₁) (env₂ : Env ω₂ σ₂) : Prop where
  refl : ∀ x, C.values x x
  neg : ∀ {x y}, C.values x y → C.values (-x) (-y)
  apply : ∀ (op : Operator) {x y x' y'}, C.values x y → C.values x' y' →
    C.values (op.apply x x') (op.apply y y')
  reference : ∀ {s₁ s₂}, C.Joined s₁ s₂ → '$' :: s₁.cursor.rest <:+ C.text →
    C.Outcome C.values (Scanner.reference env₁ s₁) (Scanner.reference env₂ s₂)
  call : ∀ {f : Builtin} {name : List Char} {args₁ args₂ h₁ h₂}, name <:+: C.text →
    String.ofList (Text.lower name) = f.name → C.Args args₁ args₂ → C.hosts h₁ h₂ →
    Option.Rel C.values (f.call env₁.random args₁ h₁).1 (f.call env₂.random args₂ h₂).1 ∧
      C.hosts (f.call env₁.random args₁ h₁).2 (f.call env₂.random args₂ h₂).2
  errors : ∀ {e}, (∀ limit, e ≠ .tooDeep limit) → C.errors e e

/-- **Related levels**: both runs may go deeper and do so in lockstep, or neither may, or only the
first may not and stops alone. -/
inductive Levels (env₁ : Env ω₁ σ₁) (env₂ : Env ω₂ σ₂) :
    Option (Scanner σ₁ Float) → Option (Scanner σ₂ Float) → Prop
  | deeper {one₁ : Scanner σ₁ Float} {one₂ : Scanner σ₂ Float} :
      C.Lockstep C.values one₁ one₂ → Levels env₁ env₂ (some one₁) (some one₂)
  | last : C.errors (.tooDeep env₁.maxDepth) (.tooDeep env₂.maxDepth) → Levels env₁ env₂ none none
  | short {inner : Option (Scanner σ₂ Float)} :
      C.escapes (.tooDeep env₁.maxDepth) → Levels env₁ env₂ none inner

variable {C}

/-! ## Sequences and single steps -/

namespace Lockstep

/-- Related values are given in lockstep. -/
protected lemma pure {R : α₁ → α₂ → Prop} {a₁ : α₁} {a₂ : α₂} (h : R a₁ a₂) :
    C.Lockstep R (pure a₁) (pure a₂) :=
  fun _ _ hs => .ok h hs

/-- Related errors stop both runs. -/
protected lemma throw {R : α₁ → α₂ → Prop} {e₁ e₂ : EvalError} (h : C.errors e₁ e₂) :
    C.Lockstep R (throw e₁) (throw e₂) :=
  fun _ _ hs => .error h hs

/-- An error that the first run may stop with alone stops it. -/
protected lemma throw_escape {R : α₁ → α₂ → Prop} {e : EvalError} (h : C.escapes e)
    (m : Scanner σ₂ α₂) : C.Lockstep R (throw e) m :=
  fun _ _ _ => .escape h

/-- **Sequences in lockstep**: their second parts are started with related values. -/
protected lemma bind {R : α₁ → α₂ → Prop} {S : β₁ → β₂ → Prop} {m₁ : Scanner σ₁ α₁}
    {m₂ : Scanner σ₂ α₂} {f₁ : α₁ → Scanner σ₁ β₁} {f₂ : α₂ → Scanner σ₂ β₂}
    (hm : C.Lockstep R m₁ m₂) (hf : ∀ a₁ a₂, R a₁ a₂ → C.Lockstep S (f₁ a₁) (f₂ a₂)) :
    C.Lockstep S (m₁ >>= f₁) (m₂ >>= f₂) := by
  intro s₁ s₂ hs
  have h := hm s₁ s₂ hs
  rw [Scanner.bind_apply, Scanner.bind_apply]
  generalize m₁ s₁ = r₁ at h ⊢
  generalize m₂ s₂ = r₂ at h ⊢
  cases h with
  | ok ha ht => exact hf _ _ ha _ _ ht
  | error he ht => exact .error he ht
  | escape he => exact .escape he

/-- A move forward is made in lockstep. -/
protected lemma move {f : Cursor → Cursor} (hf : ∀ c, (f c).rest <:+ c.rest) :
    C.Lockstep (fun _ _ => True) (Scanner.move f) (Scanner.move f) := by
  intro s₁ s₂ hs
  exact .ok trivial ⟨congrArg f hs.cursor, hs.depth, (hf _).trans hs.suffix, hs.hosts⟩

/-- Moving over a character is done in lockstep. -/
protected lemma advance : C.Lockstep (fun _ _ => True) Scanner.advance Scanner.advance :=
  .move fun _ => List.drop_suffix _ _

/-- Moving over blanks is done in lockstep. -/
protected lemma skipBlanks : C.Lockstep (fun _ _ => True) Scanner.skipBlanks Scanner.skipBlanks :=
  .move fun _ => List.dropWhile_suffix _

/-- The cursor is the same in both runs. -/
protected lemma cursor : C.Lockstep (· = ·) Scanner.cursor Scanner.cursor :=
  fun _ _ hs => .ok hs.cursor hs

/-- The character ahead is the same in both runs. -/
protected lemma current : C.Lockstep (· = ·) Scanner.current Scanner.current :=
  fun _ _ hs => .ok (congrArg Cursor.current hs.cursor) hs

/-- The character behind the one ahead is the same in both runs. -/
protected lemma next : C.Lockstep (· = ·) Scanner.next Scanner.next :=
  fun _ _ hs => .ok (congrArg Cursor.next hs.cursor) hs

/-- The run taken is the same in both runs, and a part of the text. -/
protected lemma takeRun (p : Char → Bool) :
    C.Lockstep (fun a₁ a₂ => a₁ = a₂ ∧ a₁ <:+: C.text) (Scanner.takeRun p)
      (Scanner.takeRun p) := by
  intro s₁ s₂ hs
  refine .ok ⟨congrArg (Cursor.run p) hs.cursor, ?_⟩
    ⟨congrArg (Cursor.skipWhile p) hs.cursor, hs.depth, ?_, hs.hosts⟩
  · exact (List.takeWhile_prefix p).isInfix.trans hs.suffix.isInfix
  · exact (List.dropWhile_suffix p).trans hs.suffix

/-- A character is accepted in both runs or in neither. -/
protected lemma accept (c : Char) : C.Lockstep (· = ·) (Scanner.accept c) (Scanner.accept c) := by
  intro s₁ s₂ hs
  rw [Scanner.accept_apply, Scanner.accept_apply, ← hs.cursor]
  split
  · exact .ok rfl ⟨rfl, hs.depth, (List.drop_suffix _ _).trans hs.suffix, hs.hosts⟩
  · exact .ok rfl hs

/-- A parenthesis is opened in both runs. -/
protected lemma openParen : C.Lockstep (fun _ _ => True) Scanner.openParen Scanner.openParen :=
  fun _ _ hs => .ok trivial ⟨hs.cursor, congrArg (· + 1) hs.depth, hs.suffix, hs.hosts⟩

/-- Related calls on the hosts are made in lockstep. -/
protected lemma onHost {R : α₁ → α₂ → Prop} {call₁ : StateM σ₁ α₁} {call₂ : StateM σ₂ α₂}
    (h : ∀ h₁ h₂, C.hosts h₁ h₂ →
      R (call₁ h₁).1 (call₂ h₂).1 ∧ C.hosts (call₁ h₁).2 (call₂ h₂).2) :
    C.Lockstep R (Scanner.onHost call₁) (Scanner.onHost call₂) := by
  intro s₁ s₂ hs
  obtain ⟨ha, hh⟩ := h _ _ hs.hosts
  exact .ok ha ⟨hs.cursor, hs.depth, hs.suffix, hh⟩

/-- A violation stops both runs at the same position. -/
protected lemma violation {R : α₁ → α₂ → Prop} {v : Violation}
    (hv : ∀ position, C.errors (.malformed position v) (.malformed position v)) :
    C.Lockstep R (Scanner.fail v) (Scanner.fail v) := by
  intro s₁ s₂ hs
  show C.Outcome R (.error (.malformed s₁.cursor.position v) s₁)
    (.error (.malformed s₂.cursor.position v) s₂)
  rw [← hs.cursor]
  exact .error (hv _) hs

/-! ## Operands without parts, and operators -/

section

variable {env₁ : Env ω₁ σ₁} {env₂ : Env ω₂ σ₂}

/-- A violation stops both runs at the same position. -/
protected lemma fail (hC : C.Respects env₁ env₂) {R : α₁ → α₂ → Prop} (v : Violation) :
    C.Lockstep R (Scanner.fail v) (Scanner.fail v) :=
  .violation fun _ => hC.errors (EvalError.malformed_ne_tooDeep _ _)

/-- A parenthesis is closed in both runs or unmatched in both. -/
protected lemma closeParen (hC : C.Respects env₁ env₂) :
    C.Lockstep (fun _ _ => True) Scanner.closeParen Scanner.closeParen := by
  intro s₁ s₂ hs
  obtain ⟨hcursor, hdepth, hsuffix, hhosts⟩ := hs
  rw [Scanner.closeParen_apply, Scanner.closeParen_apply, ← hcursor, ← hdepth]
  split
  · exact .error (hC.errors (EvalError.malformed_ne_tooDeep _ _)) ⟨hcursor, hdepth, hsuffix, hhosts⟩
  · exact .ok trivial ⟨rfl, rfl, (List.drop_suffix _ _).trans hsuffix, hhosts⟩

/-- A literal is the same in both runs. -/
protected lemma number (hC : C.Respects env₁ env₂) :
    C.Lockstep C.values Scanner.number Scanner.number := by
  intro s₁ s₂ hs
  rw [Scanner.number_apply, Scanner.number_apply, ← hs.cursor]
  have hstop : (Literal.scan s₁.cursor).stop.rest <:+ C.text :=
    (Literal.stop_suffix s₁.cursor).trans hs.suffix
  cases hscan : Literal.scan s₁.cursor with
  | done literal stop =>
    rw [hscan] at hstop
    exact .ok (hC.refl _) ⟨rfl, hs.depth, hstop, hs.hosts⟩
  | refused violation stop =>
    rw [hscan] at hstop
    exact .error (hC.errors (EvalError.malformed_ne_tooDeep _ _)) ⟨rfl, hs.depth, hstop, hs.hosts⟩

/-- An operator is the same in both runs. -/
protected lemma operator (hC : C.Respects env₁ env₂) (c : Char) :
    C.Lockstep (· = ·) (Scanner.operator c) (Scanner.operator c) := by
  intro s₁ s₂ hs
  rw [Scanner.operator_apply, Scanner.operator_apply, ← hs.cursor]
  rcases Operator.read? c s₁.cursor.next with _ | ⟨op, width⟩
  · exact .error (hC.errors (EvalError.malformed_ne_tooDeep _ _)) hs
  · exact .ok rfl ⟨rfl, hs.depth, (List.drop_suffix _ _).trans hs.suffix, hs.hosts⟩

/-! ## Chains and calls -/

/-- Related results of a chain: related values, and the same ending. -/
def Ended (C : Coupling σ₁ σ₂) (a₁ a₂ : Float × Ending) : Prop :=
  C.values a₁.1 a₂.1 ∧ a₁.2 = a₂.2

/-- The end of the text ends a chain in both runs or in neither. -/
protected lemma endOfText (hC : C.Respects env₁ env₂) (scope : Scope) {r₁ r₂ : Float}
    (hr : C.values r₁ r₂) :
    C.Lockstep (Ended C) (Scanner.endOfText scope r₁) (Scanner.endOfText scope r₂) := by
  simp only [Scanner.endOfText]
  split
  · exact .pure ⟨hr, rfl⟩
  · exact .fail hC _

/-- **The rest of a chain is read in lockstep**, if its operands are.

**Proof sketch.** Induction on the rounds. The character ahead is the same in both runs, so both
end the chain or both read the same operator and an operand; the results stay related, and the
next round is the induction hypothesis. -/
protected lemma chainRest (hC : C.Respects env₁ env₂) {one₁ : Scanner σ₁ Float}
    {one₂ : Scanner σ₂ Float} (hone : C.Lockstep C.values one₁ one₂) (scope : Scope)
    (rounds : Nat) {r₁ r₂ : Float} (hr : C.values r₁ r₂) :
    C.Lockstep (Ended C) (Scanner.chainRest one₁ scope rounds r₁)
      (Scanner.chainRest one₂ scope rounds r₂) := by
  induction rounds generalizing r₁ r₂ with
  | zero => exact .endOfText hC scope hr
  | succ rounds ih =>
    simp only [Scanner.chainRest]
    refine .bind .skipBlanks fun _ _ _ => .bind .current ?_
    rintro (_ | c) _ rfl
    · exact .endOfText hC scope hr
    · dsimp only
      split
      · exact .bind (.closeParen hC) fun _ _ _ => .pure ⟨hr, rfl⟩
      · split
        · exact .bind .advance fun _ _ _ => .pure ⟨hr, rfl⟩
        · refine .bind (.operator hC c) ?_
          rintro op _ rfl
          exact .bind hone fun _ _ ha => ih (hC.apply op hr ha)

/-- Chains are read in lockstep, if their operands are. -/
protected lemma chain (hC : C.Respects env₁ env₂) {one₁ : Scanner σ₁ Float}
    {one₂ : Scanner σ₂ Float} (hone : C.Lockstep C.values one₁ one₂) (scope : Scope) :
    C.Lockstep (Ended C) (Scanner.chain one₁ scope) (Scanner.chain one₂ scope) := by
  refine .bind hone fun _ _ ha => .bind .cursor ?_
  rintro c _ rfl
  exact .chainRest hC hone scope _ ha

/-- Arguments are read in lockstep, and the last one is the last in both runs. -/
protected lemma argument (hC : C.Respects env₁ env₂) {one₁ : Scanner σ₁ Float}
    {one₂ : Scanner σ₂ Float} (hone : C.Lockstep C.values one₁ one₂) :
    C.Lockstep (fun a₁ a₂ => C.values a₁.1 a₂.1 ∧ a₁.2 = a₂.2) (Scanner.argument one₁)
      (Scanner.argument one₂) := by
  refine .bind (.chain hC hone .argument) ?_
  rintro ⟨x₁, ending⟩ ⟨x₂, _⟩ ⟨hx, rfl⟩
  exact .pure ⟨hx, rfl⟩

/-- The arguments of a call are read in lockstep, and their number is wrong in both runs or in
neither. -/
protected lemma arguments (hC : C.Respects env₁ env₂) {one₁ : Scanner σ₁ Float}
    {one₂ : Scanner σ₂ Float} (hone : C.Lockstep C.values one₁ one₂) (f : Builtin) :
    C.Lockstep C.Args (Scanner.arguments f one₁) (Scanner.arguments f one₂) := by
  rw [Scanner.arguments_eq, Scanner.arguments_eq]
  refine .bind (.argument hC hone) ?_
  rintro ⟨x₁, last⟩ ⟨x₂, _⟩ ⟨hx, rfl⟩
  have hcount : C.Lockstep C.Args (throw (.argumentCount f)) (throw (.argumentCount f)) :=
    .throw (hC.errors (EvalError.argumentCount_ne_tooDeep f))
  have hsecond : C.Lockstep C.Args (Scanner.secondArgument f one₁ x₁)
      (Scanner.secondArgument f one₂ x₂) := by
    refine .bind (.argument hC hone) ?_
    rintro ⟨y₁, last⟩ ⟨y₂, _⟩ ⟨hy, rfl⟩
    cases last
    · exact hcount
    · exact .pure (.two hx hy)
  unfold Scanner.furtherArguments Builtin.take
  cases f.arity <;> cases last
  case one.false | two.true => exact hcount
  case one.true | oneOrTwo.true => exact .pure (.one hx)
  case two.false | oneOrTwo.false => exact hsecond

/-- Going a level deeper is done in lockstep, if the two levels are related. -/
protected lemma nested {inner₁ : Option (Scanner σ₁ Float)} {inner₂ : Option (Scanner σ₂ Float)}
    (hinner : C.Levels env₁ env₂ inner₁ inner₂) {R : α₁ → α₂ → Prop}
    {body₁ : Scanner σ₁ Float → Scanner σ₁ α₁} {body₂ : Scanner σ₂ Float → Scanner σ₂ α₂}
    (hbody : ∀ one₁ one₂, C.Lockstep C.values one₁ one₂ →
      C.Lockstep R (body₁ one₁) (body₂ one₂)) :
    C.Lockstep R (Scanner.nested env₁ inner₁ body₁) (Scanner.nested env₂ inner₂ body₂) := by
  cases hinner with
  | deeper hone => exact hbody _ _ hone
  | last h => exact .throw h
  | short h => exact .throw_escape h _

/-- **Calls are made in lockstep**, if the level of their arguments is related.

**Proof sketch.** The name is a part of the text, so it is the same in both runs and the data may
be asked about it. Both runs find the same function or none, read its arguments in lockstep, and
what the function computes is related by the assumption on calls. -/
protected lemma call (hC : C.Respects env₁ env₂) {inner₁ : Option (Scanner σ₁ Float)}
    {inner₂ : Option (Scanner σ₂ Float)} (hinner : C.Levels env₁ env₂ inner₁ inner₂) :
    C.Lockstep C.values (Scanner.call env₁ inner₁) (Scanner.call env₂ inner₂) := by
  refine .bind (.takeRun Char.isAlphanum) ?_
  rintro run _ ⟨rfl, hrun⟩
  refine .bind .skipBlanks fun _ _ _ => .bind (.accept '(') ?_
  rintro opened _ rfl
  cases opened with
  | false => exact .fail hC _
  | true =>
    refine .bind .openParen fun _ _ _ => ?_
    cases hf : Builtin.named? (String.ofList (Text.lower run)) with
    | none => exact .throw (hC.errors (EvalError.unknownFunction_ne_tooDeep _))
    | some f =>
      have hname : String.ofList (Text.lower run) = f.name := Builtin.name_of_named? hf
      refine .bind (.nested hinner fun _ _ hone => .arguments hC hone f) fun args₁ args₂ hargs => ?_
      refine .bind (.onHost fun h₁ h₂ hh => hC.call hrun hname hargs hh) ?_
      rintro _ _ (hx | _)
      · exact .pure hx
      · exact .throw (hC.errors (EvalError.argumentCount_ne_tooDeep f))

/-! ## Operands -/

/-- **Operands are read in lockstep**, if the levels below them are related.

**Proof sketch.** Both runs move over the same blanks and see the same first character, which
decides what is read. Behind a mark the assumption on references applies, as the mark and what is
ahead of it are an end of the text. -/
protected lemma operandWith (hC : C.Respects env₁ env₂) {inner₁ : Option (Scanner σ₁ Float)}
    {inner₂ : Option (Scanner σ₂ Float)} (hinner : C.Levels env₁ env₂ inner₁ inner₂) :
    C.Lockstep C.values (Scanner.operandWith env₁ inner₁) (Scanner.operandWith env₂ inner₂) := by
  intro s₁ s₂ hs
  rw [← Scanner.operandWith_settle env₁ inner₁ s₁, ← Scanner.operandWith_settle env₂ inner₂ s₂]
  have hsettled : C.Joined s₁.settle s₂.settle :=
    ⟨congrArg (Cursor.skipWhile Text.isBlank) hs.cursor, hs.depth,
      (List.dropWhile_suffix _).trans hs.suffix, hs.hosts⟩
  have hhead := Running.head_settle s₁
  generalize s₁.settle = u₁ at hsettled hhead ⊢
  generalize s₂.settle = u₂ at hsettled ⊢
  obtain ⟨⟨⟨p, cs⟩, d⟩, h₁⟩ := u₁
  obtain ⟨⟨c₂, d₂⟩, h₂⟩ := u₂
  obtain rfl : ⟨p, cs⟩ = c₂ := hsettled.cursor
  obtain rfl : d = d₂ := hsettled.depth
  cases cs with
  | nil => exact .error (hC.errors (EvalError.malformed_ne_tooDeep _ _)) hsettled
  | cons c cs =>
    have hc : Text.isBlank c = false := hhead c rfl
    rw [Scanner.operandWith_cons env₁ inner₁ hc, Scanner.operandWith_cons env₂ inner₂ hc]
    split_ifs with hdigit halpha hmark hopen hplus hminus hclose
    · exact Lockstep.number hC _ _ hsettled
    · exact Lockstep.call hC hinner _ _ hsettled
    · subst hmark
      have hbehind : C.Joined (.facing (p + 1) cs d h₁) (.facing (p + 1) cs d h₂) :=
        ⟨rfl, rfl, (List.suffix_cons _ _).trans hsettled.suffix, hsettled.hosts⟩
      exact hC.reference hbehind hsettled.suffix
    · refine Lockstep.bind .advance (fun _ _ _ => .bind .openParen fun _ _ _ => ?_) _ _ hsettled
      exact .bind (.nested hinner fun _ _ hone => .chain hC hone .group)
        fun _ _ ha => .pure ha.1
    · exact Lockstep.bind .advance (fun _ _ _ => .nested hinner fun _ _ hone => hone) _ _ hsettled
    · refine Lockstep.bind .advance (fun _ _ _ => ?_) _ _ hsettled
      exact .bind (.nested hinner fun _ _ hone => hone) fun _ _ hx => .pure (hC.neg hx)
    · exact .ok (hC.refl _) hsettled
    · exact Lockstep.fail hC _ _ _ hsettled

/-- **Operands are read in lockstep** at related numbers of levels: equally many, and then the
errors of the limits are related, or fewer in the first run, which then may stop alone.

**Proof sketch.** Induction on the levels; the levels below are related by the induction
hypothesis, and where none are left by the assumption on the errors of the limits. -/
theorem operand (hC : C.Respects env₁ env₂) {n₁ n₂ : Nat}
    (hn : n₁ = n₂ ∧ C.errors (.tooDeep env₁.maxDepth) (.tooDeep env₂.maxDepth) ∨
      n₁ ≤ n₂ ∧ C.escapes (.tooDeep env₁.maxDepth)) :
    C.Lockstep C.values (Scanner.operand env₁ n₁) (Scanner.operand env₂ n₂) := by
  induction n₁ generalizing n₂ with
  | zero =>
    rcases hn with ⟨rfl, h⟩ | ⟨-, h⟩
    · exact .operandWith hC (.last h)
    · cases n₂ <;> exact .operandWith hC (.short h)
  | succ n₁ ih =>
    obtain ⟨m, rfl⟩ : ∃ m, n₂ = m + 1 := ⟨n₂ - 1, by omega⟩
    refine .operandWith hC (.deeper (ih ?_))
    rcases hn with ⟨hn, h⟩ | ⟨hn, h⟩
    · exact .inl ⟨by omega, h⟩
    · exact .inr ⟨by omega, h⟩

/-- **Whole texts are read in lockstep**: with equal limits whose errors are related, or with the
lower limit in the first run, which then may stop alone. -/
theorem formula (hC : C.Respects env₁ env₂)
    (hn : env₁.maxDepth = env₂.maxDepth ∧
        C.errors (.tooDeep env₁.maxDepth) (.tooDeep env₂.maxDepth) ∨
      env₁.maxDepth ≤ env₂.maxDepth ∧ C.escapes (.tooDeep env₁.maxDepth)) :
    C.Lockstep C.values (Scanner.formula env₁) (Scanner.formula env₂) :=
  .bind (.chain hC (operand hC hn) .whole) fun _ _ ha => .pure ha.1

end

end Lockstep

end Coupling

end Formula
