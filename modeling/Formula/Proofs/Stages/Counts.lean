import Formula.Proofs.Soundness
import Formula.Proofs.Stages

set_option relaxedAutoImplicit false
set_option autoImplicit false

/-!
# What the parts of an evaluation count

Open parentheses are counted in one register and entered levels in another. Most parts of an
evaluation touch neither of them; the start of an operand may open a parenthesis, and a link may
close one. A part that stops with an error leaves both counts as they were.

## Main definitions

* `Formula.Machine.Counts` — scanners that open and close so many parentheses.

## Main results

* `Formula.Machine.Counts.opening` — the start of an operand opens the parenthesis of a group or
  call.
* `Formula.Machine.Counts.link` — a link closes the parenthesis that ends a chain.
-/

namespace Formula

variable {ω σ α β : Type}

/-- How many parentheses a link closes. -/
def Link.closed : Link → Nat
  | ended ending => ending.closed
  | operator _ => 0

namespace Machine

/-- How many parentheses the start of an operand opens. -/
def Opening.opened : Opening → Nat
  | value _ => 0
  | sign _ => 0
  | group => 1
  | call _ => 1

/-- **Scanners that open and close so many parentheses** when they give a value, and none when they
stop with an error; the levels stay the same. -/
structure Counts (m : Scanner (Registers σ) α) (opens closes : α → Nat) : Prop where
  /-- With a value the parentheses are counted. -/
  ok : ∀ {s t : Running (Registers σ)} {a : α}, m s = .ok a t →
    t.depth + closes a = s.depth + opens a ∧ t.host.nesting = s.host.nesting
  /-- With an error nothing is counted. -/
  error : ∀ {s t : Running (Registers σ)} {e : EvalError}, m s = .error e t →
    t.depth = s.depth ∧ t.host.nesting = s.host.nesting

/-- **Scanners that keep the counts.** -/
abbrev Keeps (m : Scanner (Registers σ) α) : Prop :=
  Counts m (fun _ => 0) (fun _ => 0)

namespace Counts

variable {opens closes : α → Nat}

/-- A scanner that always gives a value counts what its states do. -/
lemma of_ok {m : Scanner (Registers σ) α} {f : Running (Registers σ) → α}
    {g : Running (Registers σ) → Running (Registers σ)} (hm : ∀ s, m s = .ok (f s) (g s))
    (hg : ∀ s, (g s).depth + closes (f s) = s.depth + opens (f s) ∧
      (g s).host.nesting = s.host.nesting) : Counts m opens closes where
  ok {s t a} hrun := by
    rw [hm s] at hrun
    cases hrun
    exact hg s
  error {s t e} hrun := by
    rw [hm s] at hrun
    cases hrun

/-- A scanner that always stops on the spot counts nothing. -/
lemma of_error {m : Scanner (Registers σ) α} {f : Running (Registers σ) → EvalError}
    (hm : ∀ s, m s = .error (f s) s) : Counts m opens closes where
  ok {s t a} hrun := by
    rw [hm s] at hrun
    cases hrun
  error {s t e} hrun := by
    rw [hm s] at hrun
    cases hrun
    exact ⟨rfl, rfl⟩

/-- A value counts nothing. -/
protected lemma pure {a : α} (h : closes a = opens a) :
    Counts (pure a : Scanner (Registers σ) α) opens closes :=
  .of_ok (fun _ => rfl) fun s => ⟨congrArg (s.depth + ·) h, rfl⟩

/-- An error counts nothing. -/
protected lemma throw (e : EvalError) :
    Counts (throw e : Scanner (Registers σ) α) opens closes :=
  .of_error fun _ => rfl

/-- A violation counts nothing. -/
protected lemma fail (v : Violation) :
    Counts (Scanner.fail v : Scanner (Registers σ) α) opens closes :=
  .of_error fun _ => rfl

/-- **In a sequence the second part counts** if the first one keeps the counts. -/
protected lemma bind {m : Scanner (Registers σ) α} {f : α → Scanner (Registers σ) β}
    {opens closes : β → Nat} (hm : Keeps m) (hf : ∀ a, Counts (f a) opens closes) :
    Counts (m >>= f) opens closes where
  ok {s t b} hrun := by
    obtain ⟨a, u, hfirst, hsecond⟩ := Scanner.bind_eq_ok.mp hrun
    have hu := hm.ok hfirst
    have ht := (hf a).ok hsecond
    exact ⟨ht.1.trans (congrArg (· + _) hu.1), ht.2.trans hu.2⟩
  error {s t e} hrun := by
    rw [Scanner.bind_apply] at hrun
    cases hfirst : m s with
    | ok a u =>
      rw [hfirst] at hrun
      have hu := hm.ok hfirst
      have ht := (hf a).error hrun
      exact ⟨ht.1.trans hu.1, ht.2.trans hu.2⟩
    | error e' u =>
      rw [hfirst] at hrun
      cases hrun
      exact hm.error hfirst

/-- What is made of a value does not count. -/
protected lemma map {m : Scanner (Registers σ) α} {f : α → β} {opens closes : β → Nat}
    (hm : Counts m (opens ∘ f) (closes ∘ f)) :
    Counts (m >>= fun a => pure (f a)) opens closes where
  ok {s t b} hrun := by
    obtain ⟨a, u, hfirst, hsecond⟩ := Scanner.bind_eq_ok.mp hrun
    obtain ⟨rfl, rfl⟩ := Scanner.pure_eq_ok.mp hsecond
    exact hm.ok hfirst
  error {s t e} hrun := by
    rw [Scanner.bind_apply] at hrun
    cases hfirst : m s <;> rw [hfirst] at hrun <;> cases hrun
    exact hm.error hfirst

/-! ## Single steps -/

/-- Moving the cursor keeps the counts. -/
protected lemma move (f : Cursor → Cursor) : Keeps (Scanner.move f : Scanner (Registers σ) Unit) :=
  .of_ok (fun _ => rfl) fun _ => ⟨rfl, rfl⟩

/-- Moving over a character keeps the counts. -/
protected lemma advance : Keeps (Scanner.advance : Scanner (Registers σ) Unit) :=
  .move _

/-- Moving over blanks keeps the counts. -/
protected lemma skipBlanks : Keeps (Scanner.skipBlanks : Scanner (Registers σ) Unit) :=
  .move _

/-- Looking at the cursor keeps the counts. -/
protected lemma cursor : Keeps (Scanner.cursor : Scanner (Registers σ) Cursor) :=
  .of_ok (fun _ => rfl) fun _ => ⟨rfl, rfl⟩

/-- Looking at the character ahead keeps the counts. -/
protected lemma current : Keeps (Scanner.current : Scanner (Registers σ) (Option Char)) :=
  .of_ok (fun _ => rfl) fun _ => ⟨rfl, rfl⟩

/-- Looking at the character behind the one ahead keeps the counts. -/
protected lemma next : Keeps (Scanner.next : Scanner (Registers σ) (Option Char)) :=
  .of_ok (fun _ => rfl) fun _ => ⟨rfl, rfl⟩

/-- Taking a run keeps the counts. -/
protected lemma takeRun (p : Char → Bool) :
    Keeps (Scanner.takeRun p : Scanner (Registers σ) (List Char)) :=
  .of_ok (Scanner.takeRun_apply p) fun _ => ⟨rfl, rfl⟩

/-- Accepting a character keeps the counts. -/
protected lemma accept (c : Char) : Keeps (Scanner.accept c : Scanner (Registers σ) Bool) := by
  refine .bind .current fun ahead => ?_
  split_ifs
  · exact .bind .advance fun _ => .pure rfl
  · exact .pure rfl

/-- Wiping the register of the name keeps the counts. -/
protected lemma clear : Keeps (clear : Scanner (Registers σ) Unit) :=
  .of_ok (fun _ => rfl) fun _ => ⟨rfl, rfl⟩

/-- Gathering characters keeps the counts. -/
protected lemma gather (cs : List Char) : Keeps (gather cs : Scanner (Registers σ) Unit) :=
  .of_ok (fun _ => rfl) fun _ => ⟨rfl, rfl⟩

/-- Asking for what has been gathered keeps the counts. -/
protected lemma gathered : Keeps (gathered : Scanner (Registers σ) (List Char)) :=
  .of_ok (fun _ => rfl) fun _ => ⟨rfl, rfl⟩

/-- A call on a host beside the registers keeps the counts. -/
protected lemma onHost {call₁ : StateM (Registers σ) α} {call₂ : StateM σ α}
    (h : ∀ level, SameAnswer (Registers.Holds level) call₁ call₂) :
    Keeps (Scanner.onHost call₁) :=
  .of_ok (Scanner.onHost_apply call₁) fun s =>
    ⟨rfl, (h s.host.nesting s.host s.host.host ⟨rfl, rfl⟩).2.nesting⟩

/-- Reading a literal keeps the counts. -/
protected lemma number : Keeps (Scanner.number : Scanner (Registers σ) Float) := by
  refine .bind .cursor fun c => ?_
  cases Literal.scan c with
  | done literal stop => exact .bind (.move _) fun _ => .pure rfl
  | refused violation stop => exact .bind (.move _) fun _ => .fail _

/-- Reading an operator keeps the counts. -/
protected lemma operator (c : Char) :
    Keeps (Scanner.operator c : Scanner (Registers σ) Operator) := by
  refine .bind .next fun next => ?_
  rcases Operator.read? c next with _ | ⟨op, width⟩
  · exact .fail _
  · exact .bind (.move _) fun _ => .pure rfl

/-! ## References and functions -/

section

variable (env : Env ω σ)

/-- Asking the context for its number keeps the counts. -/
protected lemma wholeContext : Keeps (Scanner.wholeContext env.onRegisters) :=
  .onHost fun level => (env.alike_onRegisters level).number _

/-- Reading the name of a constant keeps the counts. -/
protected lemma namedConstant : Keeps (namedConstant env.onRegisters) := by
  rw [namedConstant_eq]
  exact .bind .clear fun _ => .bind (.accept '-') fun _ => .bind (.gather _) fun _ =>
    .bind (.takeRun _) fun _ => .bind (.gather _) fun _ => .pure rfl

/-- Looking up the member of an object that may be absent keeps the counts. -/
protected lemma memberOf (name : String) (target : Option ω) :
    Keeps (Scanner.memberOf env.onRegisters.model name target) := by
  cases target with
  | none => exact .pure rfl
  | some object => exact .onHost fun level => (env.alike_onRegisters level).member object name

/-- Asking an object that may be absent for its number keeps the counts. -/
protected lemma numberOf (found : Option ω) :
    Keeps (Scanner.numberOf env.onRegisters found) := by
  cases found with
  | none => exact .pure rfl
  | some object => exact .onHost fun level => (env.alike_onRegisters level).number object

/-- Reading a path keeps the counts, name by name. -/
protected lemma memberPath (rounds : Nat) (target : Option ω) :
    Keeps (memberPath env.onRegisters rounds target) := by
  induction rounds generalizing target with
  | zero => exact .fail _
  | succ rounds ih =>
    rw [memberPath_succ]
    refine .bind .clear fun _ => .bind (.takeRun _) fun name => .bind (.gather name) fun _ => ?_
    split_ifs
    · exact .fail _
    · refine .bind (.memberOf env _ target) fun found => .bind (.accept '.') fun more => ?_
      split_ifs
      · exact ih found
      · exact .numberOf env found

/-- Reading a path keeps the counts. -/
protected lemma path (target : Option ω) : Keeps (path env.onRegisters target) :=
  .bind .cursor fun _ => .memberPath env _ target

/-- Reading the path of a component keeps the counts. -/
protected lemma componentPath : Keeps (componentPath env.onRegisters) := by
  rw [componentPath_eq]
  refine .bind .clear fun _ => .bind (.takeRun _) fun typeName => .bind (.gather typeName) fun _ =>
    .bind (.accept ')') fun closed => ?_
  split_ifs
  · refine .bind (.accept '.') fun dotted => ?_
    split_ifs
    · exact .bind (.onHost fun level => (env.alike_onRegisters level).component _ _) fun found =>
        .path env found
    · exact .fail _
  · exact .fail _

/-- **Reading a reference keeps the counts**, also one with a type name in parentheses. -/
protected lemma reference : Keeps (reference env.onRegisters) := by
  refine .bind .current fun c => ?_
  cases c with
  | none => exact .wholeContext env
  | some c =>
    refine .bind .next fun next => ?_
    split_ifs
    · exact .namedConstant env
    · exact .wholeContext env
    · exact .bind .advance fun _ => .path env _
    · exact .bind .advance fun _ => .componentPath env
    · exact .namedConstant env
    · exact .fail _

/-- Calling a function keeps the counts. -/
protected lemma invoke (f : Builtin) (args : Arguments) :
    Keeps (Scanner.invoke env.onRegisters f args) := by
  refine .bind (.onHost fun level => (env.alike_onRegisters level).call f args) fun result => ?_
  cases result with
  | none => exact .throw _
  | some x => exact .pure rfl

end

/-! ## Parentheses -/

/-- **Opening a parenthesis counts it.** -/
protected lemma openParen {opens closes : α → Nat} {a : α} (h : closes a + 1 = opens a) :
    Counts (Scanner.openParen >>= fun _ => pure a : Scanner (Registers σ) α) opens closes := by
  refine .of_ok (fun _ => rfl) fun s => ⟨?_, rfl⟩
  show s.depth + 1 + closes a = s.depth + opens a
  omega

/-- **Closing a parenthesis takes it from the count**, which is not zero. -/
protected lemma closeParen {opens closes : α → Nat} {a : α} (h : closes a = opens a + 1) :
    Counts (Scanner.closeParen >>= fun _ => pure a : Scanner (Registers σ) α) opens closes where
  ok {s t b} hrun := by
    rw [Scanner.bind_apply, Scanner.closeParen_apply] at hrun
    split_ifs at hrun with hdepth
    cases hrun
    refine ⟨?_, rfl⟩
    show s.depth - 1 + closes a = s.depth + opens a
    omega
  error {s t e} hrun := by
    rw [Scanner.bind_apply, Scanner.closeParen_apply] at hrun
    split_ifs at hrun with hdepth
    · cases hrun
      exact ⟨rfl, rfl⟩
    · cases hrun

/-- Reading the name of a function opens the parenthesis of its call. -/
protected lemma callName :
    Counts (callName : Scanner (Registers σ) String) (fun _ => 1) (fun _ => 0) := by
  refine .bind .clear fun _ => .bind (.takeRun _) fun run => .bind (.gather _) fun _ =>
    .bind .skipBlanks fun _ => .bind .gathered fun name => .bind (.accept '(') fun opened => ?_
  split_ifs
  · exact .openParen rfl
  · exact .fail _

/-- **The start of an operand opens the parenthesis** of a group or a call. -/
protected lemma opening (env : Env ω σ) :
    Counts (opening env.onRegisters) Opening.opened (fun _ => 0) := by
  refine .bind .skipBlanks fun _ => .bind .current fun c => ?_
  cases c with
  | none => exact .fail _
  | some c =>
    dsimp only
    split_ifs
    · exact .bind .number fun _ => .pure rfl
    · exact .map .callName
    · exact .bind .advance fun _ => .bind (.reference env) fun _ => .pure rfl
    · exact .bind .advance fun _ => .openParen rfl
    · exact .bind .advance fun _ => .pure rfl
    · exact .bind .advance fun _ => .pure rfl
    · exact .pure rfl
    · exact .fail _

/-- **A link closes the parenthesis** that ends a chain. -/
protected lemma link (scope : Scope) :
    Counts (Scanner.link scope : Scanner (Registers σ) Link) (fun _ => 0) Link.closed := by
  refine .bind .skipBlanks fun _ => .bind .current fun c => ?_
  cases c with
  | none =>
    simp only [Scanner.linkAt]
    split_ifs
    · exact .pure rfl
    · exact .fail _
  | some c =>
    simp only [Scanner.linkAt]
    split_ifs
    · exact .closeParen rfl
    · exact .bind .advance fun _ => .pure rfl
    · exact .bind (.operator c) fun _ => .pure rfl

end Counts

end Machine

end Formula
