import Formula.Proofs.Steps

set_option relaxedAutoImplicit false
set_option autoImplicit false

/-!
# Progress through a text

Evaluation moves forward only: whatever it reads, and whether it gives a value or stops with an
error, its cursor then stands at or behind the place where it stood, in the same text. An error that
tells a position tells the one where the cursor stopped.

## Main definitions

* `Formula.Cursor.Reaches` — a place further on in the same text.
* `Formula.Scanner.Forward` — scanners that move forward and stop where they say.

## Main results

* `Formula.Scanner.forward_operand`, `Formula.Scanner.forward_formula` — evaluation moves forward.
* `Formula.Scanner.position_of_malformed` — an error tells the position where the cursor stopped.
-/

namespace Formula

variable {ω σ α β : Type}

/-! ## Places further on -/

/-- **A place further on in the same text**, or the same place. -/
structure Cursor.Reaches (c c' : Cursor) : Prop where
  /-- What is ahead there is an end of what is ahead here. -/
  rest : c'.rest <:+ c.rest
  /-- The text is the same. -/
  length : c'.length = c.length

namespace Cursor.Reaches

/-- A place reaches itself. -/
lemma refl (c : Cursor) : c.Reaches c :=
  ⟨List.suffix_rfl, rfl⟩

/-- What is reached from a place that is reached is reached. -/
lemma trans {c c' c'' : Cursor} (h : c.Reaches c') (h' : c'.Reaches c'') : c.Reaches c'' :=
  ⟨h'.rest.trans h.rest, h'.length.trans h.length⟩

/-- Moving over characters reaches a place further on. -/
lemma advanceBy (n : Nat) (c : Cursor) : c.Reaches (c.advanceBy n) :=
  ⟨List.drop_suffix _ _, length_advanceBy n c⟩

/-- Moving over a run reaches a place further on. -/
lemma skipWhile (p : Char → Bool) (c : Cursor) : c.Reaches (c.skipWhile p) :=
  ⟨List.dropWhile_suffix _, length_skipWhile p c⟩

/-- The scan of a literal stops further on. -/
lemma literal (c : Cursor) : c.Reaches (Literal.scan c).stop :=
  ⟨Literal.stop_suffix c, Literal.length_scan c⟩

/-- The scan of a path stops further on. -/
lemma path (c : Cursor) : c.Reaches (Path.scan c).stop :=
  ⟨Path.stop_suffix c, Path.length_scan c⟩

end Cursor.Reaches

/-- **An error that stands at a position**: if it tells one, it tells this one. -/
def EvalError.StandsAt (e : EvalError) (position : Nat) : Prop :=
  ∀ p v, e = .malformed p v → p = position

namespace Scanner

/-- Follows the names of a path that has been scanned; a malformed one is an error then. -/
def lookUp (env : Env ω σ) (target : Option ω) (names : List String) (wellFormed : Bool) :
    Scanner σ Float := do
  let found ← onHost (env.model.follow target names)
  if wellFormed then
    match found with
    | some object => onHost (env.model.number object)
    | none => return 0.0
  else fail .missingMember

/-- A path is looked up behind its scan. -/
lemma memberPath_eq (env : Env ω σ) (target : Option ω) (s : Running σ) :
    memberPath env target s =
      lookUp env target (Path.scan s.cursor).names (Path.scan s.cursor).wellFormed
        { s with cursor := (Path.scan s.cursor).stop } := rfl

/-- Reads what stands behind the name of a component's type: its parenthesis, a point and a path. -/
def registered (env : Env ω σ) (typeName : List Char) : Scanner σ Float := do
  if ← accept ')' then
    if ← accept '.' then
      let name := String.ofList (Text.trimBlanks typeName)
      let component ← onHost (env.model.component env.context name)
      memberPath env component
    else fail (.missingPath (String.ofList typeName))
  else fail .openTypeName

/-- The path of a component is a type name and what stands behind it. -/
lemma componentPath_eq (env : Env ω σ) :
    componentPath env = takeRun (fun c => c ≠ ')') >>= registered env := rfl

/-- Reads a call from the parenthesis behind its name on. -/
def called (env : Env ω σ) (inner : Option (Scanner σ Float)) (name : List Char) :
    Scanner σ Float := do
  if ← accept '(' then
    openParen
    match Builtin.named? (String.ofList (Text.lower name)) with
    | none => throw (.unknownFunction (String.ofList (Text.lower name)))
    | some f => applied env inner f
  else fail (.missingOpen (String.ofList (Text.lower name)))

/-- A call is a name, blanks, and what stands behind them. -/
lemma call_eq (env : Env ω σ) (inner : Option (Scanner σ Float)) :
    call env inner =
      takeRun Char.isAlphanum >>= fun name => skipBlanks >>= fun _ => called env inner name := rfl

/-- The state that a run ends in, with a value or an error. -/
def final : EStateM.Result EvalError (Running σ) α → Running σ
  | .ok _ t => t
  | .error _ t => t

/-- **A scanner that moves forward** and, when it stops with an error that tells a position, stops
there. -/
structure Forward (m : Scanner σ α) : Prop where
  /-- It ends further on in the same text. -/
  reaches : ∀ s : Running σ, s.cursor.Reaches (final (m s)).cursor
  /-- Its errors tell where it stopped. -/
  standsAt : ∀ {s t : Running σ} {e : EvalError}, m s = .error e t →
    e.StandsAt t.cursor.position

namespace Forward

/-! ## Sequences and single steps -/

/-- A scanner that always gives a value moves forward if its states do. -/
lemma of_ok {m : Scanner σ α} {f : Running σ → α} {g : Running σ → Running σ}
    (hm : ∀ s, m s = .ok (f s) (g s)) (hg : ∀ s : Running σ, s.cursor.Reaches (g s).cursor) :
    Forward m where
  reaches s := by rw [hm s]; exact hg s
  standsAt {s t e} hrun := by rw [hm s] at hrun; cases hrun

/-- A value is given on the spot. -/
protected lemma pure (a : α) : Forward (pure a : Scanner σ α) :=
  .of_ok (g := id) (fun _ => rfl) fun s => .refl s.cursor

/-- **A sequence moves forward if both of its parts do.** -/
protected lemma bind {m : Scanner σ α} {f : α → Scanner σ β} (hm : Forward m)
    (hf : ∀ a, Forward (f a)) : Forward (m >>= f) where
  reaches s := by
    have hfirst := hm.reaches s
    rw [bind_apply]
    cases hrun : m s with
    | ok a t =>
      rw [hrun] at hfirst
      exact hfirst.trans ((hf a).reaches t)
    | error e t =>
      rw [hrun] at hfirst
      exact hfirst
  standsAt {s t e} hrun := by
    rw [bind_apply] at hrun
    cases hfirst : m s with
    | ok a u =>
      rw [hfirst] at hrun
      exact (hf a).standsAt hrun
    | error e' u =>
      rw [hfirst] at hrun
      obtain ⟨rfl, rfl⟩ := EStateM.Result.error.inj hrun
      exact hm.standsAt hfirst

/-- An error that tells no position is given on the spot. -/
protected lemma throw {e : EvalError} (he : ∀ p v, e ≠ .malformed p v) :
    Forward (throw e : Scanner σ α) where
  reaches s := Cursor.Reaches.refl s.cursor
  standsAt {s t e'} hrun := by
    obtain ⟨rfl, rfl⟩ : e = e' ∧ s = t := EStateM.Result.error.inj hrun
    exact fun p v h => absurd h (he p v)

/-- A violation tells where the cursor stands. -/
protected lemma fail (v : Violation) : Forward (fail v : Scanner σ α) where
  reaches s := Cursor.Reaches.refl s.cursor
  standsAt {s t e} hrun := by
    obtain ⟨rfl, rfl⟩ : EvalError.malformed s.cursor.position v = e ∧ s = t :=
      EStateM.Result.error.inj hrun
    intro p v h
    cases h
    rfl

/-- The state is read on the spot. -/
protected lemma get : Forward (get : Scanner σ (Running σ)) :=
  .of_ok (g := id) (fun _ => rfl) fun s => .refl s.cursor

/-- The cursor is read on the spot. -/
protected lemma cursor : Forward (cursor : Scanner σ Cursor) :=
  .of_ok (g := id) (fun _ => rfl) fun s => .refl s.cursor

/-- The character ahead is read on the spot. -/
protected lemma current : Forward (current : Scanner σ (Option Char)) :=
  .of_ok (g := id) (fun _ => rfl) fun s => .refl s.cursor

/-- The character behind the one ahead is read on the spot. -/
protected lemma next : Forward (next : Scanner σ (Option Char)) :=
  .of_ok (g := id) (fun _ => rfl) fun s => .refl s.cursor

/-- A move of the cursor to a place further on. -/
protected lemma move {f : Cursor → Cursor} (hf : ∀ c : Cursor, c.Reaches (f c)) :
    Forward (move f : Scanner σ Unit) :=
  .of_ok (fun _ => rfl) fun s => hf s.cursor

/-- Moving over a character moves forward. -/
protected lemma advance : Forward (advance : Scanner σ Unit) :=
  .move (.advanceBy 1)

/-- Moving over blanks moves forward. -/
protected lemma skipBlanks : Forward (skipBlanks : Scanner σ Unit) :=
  .move (.skipWhile Text.isBlank)

/-- Taking a run moves forward. -/
protected lemma takeRun (p : Char → Bool) : Forward (takeRun p : Scanner σ (List Char)) :=
  .of_ok (takeRun_apply p) fun s => .skipWhile p s.cursor

/-- Accepting a character moves forward. -/
protected lemma accept (c : Char) : Forward (accept c : Scanner σ Bool) := by
  refine .bind .current fun b => ?_
  split
  · exact .bind .advance fun _ => .pure _
  · exact .pure _

/-- A call on the host moves nowhere. -/
protected lemma onHost (call : StateM σ α) : Forward (onHost call) :=
  .of_ok (onHost_apply call) fun s => .refl s.cursor

/-- Counting a parenthesis moves nowhere. -/
protected lemma openParen : Forward (openParen : Scanner σ Unit) :=
  .of_ok (f := fun _ => ()) (fun _ => rfl) fun s => .refl s.cursor

/-- Reading a closing parenthesis moves forward. -/
protected lemma closeParen : Forward (closeParen : Scanner σ Unit) := by
  refine .bind .get fun s => ?_
  split
  · exact .fail _
  · exact .bind (.of_ok (fun _ => rfl) fun s => .refl s.cursor) fun _ => .advance

/-- **Reading a literal moves forward**, and an error in it is told where its scan stopped. -/
protected lemma number : Forward (number : Scanner σ Float) := by
  constructor
  · intro s
    have hstop := Cursor.Reaches.literal s.cursor
    rw [number_apply]
    cases hscan : Literal.scan s.cursor <;> rw [hscan] at hstop <;> exact hstop
  · intro s t e hrun
    rw [number_apply] at hrun
    cases hscan : Literal.scan s.cursor with
    | done literal stop =>
      rw [hscan] at hrun
      cases hrun
    | refused violation stop =>
      rw [hscan] at hrun
      obtain ⟨rfl, rfl⟩ := EStateM.Result.error.inj hrun
      intro p v h
      cases h
      rfl

/-- Reading an operator moves forward. -/
protected lemma operator (c : Char) : Forward (operator c : Scanner σ Operator) := by
  refine .bind .next fun next => ?_
  rcases Operator.read? c next with _ | ⟨op, width⟩
  · exact .fail _
  · exact .bind (.move (.advanceBy width)) fun _ => .pure _

/-! ## References -/

section

variable (env : Env ω σ)

/-- Reading the name of a constant moves forward. -/
protected lemma namedConstant : Forward (namedConstant env) :=
  .bind (.accept '-') fun _ => .bind (.takeRun _) fun _ => .pure _

/-- Looking up a path moves nowhere. -/
protected lemma lookUp (target : Option ω) (names : List String) (wellFormed : Bool) :
    Forward (lookUp env target names wellFormed) := by
  refine .bind (.onHost _) fun found => ?_
  split
  · cases found
    · exact .pure _
    · exact .onHost _
  · exact .fail _

/-- Reading a path moves forward. -/
protected lemma memberPath (target : Option ω) : Forward (memberPath env target) := by
  constructor
  · intro s
    have hbehind := (Forward.lookUp env target (Path.scan s.cursor).names
      (Path.scan s.cursor).wellFormed).reaches { s with cursor := (Path.scan s.cursor).stop }
    rw [memberPath_eq]
    exact (Cursor.Reaches.path s.cursor).trans hbehind
  · intro s t e hrun
    rw [memberPath_eq] at hrun
    exact (Forward.lookUp env target _ _).standsAt hrun

/-- Reading what stands behind a type name moves forward. -/
protected lemma registered (typeName : List Char) : Forward (registered env typeName) := by
  refine .bind (.accept ')') fun closed => ?_
  split
  · refine .bind (.accept '.') fun dotted => ?_
    split
    · exact .bind (.onHost _) fun _ => .memberPath env _
    · exact .fail _
  · exact .fail _

/-- Reading the path of a component moves forward. -/
protected lemma componentPath : Forward (componentPath env) :=
  .bind (.takeRun _) (.registered env)

/-- **Reading a reference moves forward.** -/
protected lemma reference : Forward (reference env) := by
  refine .bind .current fun c => ?_
  cases c with
  | none => exact .onHost _
  | some c =>
    refine .bind .next fun next => ?_
    split_ifs
    · exact .namedConstant env
    · exact .onHost _
    · exact .bind .advance fun _ => .memberPath env _
    · exact .bind .advance fun _ => .componentPath env
    · exact .namedConstant env
    · exact .fail _

end

/-! ## Chains and calls -/

section

variable {one : Scanner σ Float} (hone : Forward one)

/-- The end of the text is met on the spot. -/
protected lemma endOfText (scope : Scope) (r : Float) :
    Forward (endOfText scope r : Scanner σ (Float × Ending)) := by
  unfold endOfText
  split_ifs
  · exact .pure _
  · exact .fail _

include hone

/-- The rest of a chain moves forward if operands do. -/
protected lemma chainRest (scope : Scope) (rounds : Nat) (r : Float) :
    Forward (chainRest one scope rounds r) := by
  induction rounds generalizing r with
  | zero => exact .endOfText scope r
  | succ rounds ih =>
    simp only [chainRest]
    refine .bind .skipBlanks fun _ => .bind .current fun c => ?_
    cases c with
    | none => exact .endOfText scope r
    | some c =>
      dsimp only
      split_ifs
      · exact .bind .closeParen fun _ => .pure _
      · exact .bind .advance fun _ => .pure _
      · exact .bind (.operator c) fun op => .bind hone fun right => ih _

/-- Chains move forward if operands do. -/
protected lemma chain (scope : Scope) : Forward (chain one scope) :=
  .bind hone fun first => .bind .cursor fun _ => hone.chainRest scope _ first

/-- Arguments move forward if operands do. -/
protected lemma argument : Forward (argument one) :=
  .bind (hone.chain .argument) fun _ => .pure _

/-- What is left of the arguments of a call behind the first one moves forward if operands do. -/
protected lemma furtherArguments (f : Builtin) (r : Float × Bool) :
    Forward (furtherArguments f one r) := by
  have hcount : Forward (throw (.argumentCount f) : Scanner σ Arguments) :=
    .throw fun _ _ h => by cases h
  unfold furtherArguments
  cases f.take none r.1 r.2 with
  | complete args => exact .pure args
  | wrong => exact hcount
  | more =>
    refine .bind hone.argument fun r => ?_
    split
    · exact .pure _
    · exact hcount

/-- The arguments of a call move forward if operands do. -/
protected lemma arguments (f : Builtin) : Forward (arguments f one) := by
  rw [arguments_eq]
  exact .bind hone.argument (hone.furtherArguments f)

end

section

variable (env : Env ω σ) {inner : Option (Scanner σ Float)} (hinner : ∀ one ∈ inner, Forward one)

/-- Calling a function with its arguments moves nowhere. -/
protected lemma invoke (f : Builtin) (args : Arguments) : Forward (invoke env f args) := by
  refine .bind (.onHost _) fun result => ?_
  cases result
  · exact .throw fun _ _ h => by cases h
  · exact .pure _

include hinner

/-- What is nested moves forward if it does so with an operand that does. -/
protected lemma nested {body : Scanner σ Float → Scanner σ α}
    (hbody : ∀ one, Forward one → Forward (body one)) : Forward (nested env inner body) := by
  cases inner with
  | none => exact .throw fun _ _ h => by cases h
  | some one => exact hbody one (hinner one rfl)

/-- Reading the arguments of a function and calling it moves forward. -/
protected lemma applied (f : Builtin) : Forward (applied env inner f) :=
  .bind (.nested env hinner fun _ hone => hone.arguments f) fun args => .invoke env f args

/-- What stands behind the name of a function moves forward if operands of the level below do. -/
protected lemma called (name : List Char) : Forward (called env inner name) := by
  refine .bind (.accept '(') fun b => ?_
  split
  · refine .bind .openParen fun _ => ?_
    split
    · exact .throw fun _ _ h => by cases h
    · exact .applied env hinner _
  · exact .fail _

/-- **Calls move forward** if the operands of the level below do. -/
protected lemma call : Forward (call env inner) :=
  .bind (.takeRun _) fun name => .bind .skipBlanks fun _ => .called env hinner name

/-- **Operands move forward** if those of the level below do. -/
protected lemma operandWith : Forward (operandWith env inner) := by
  refine .bind .skipBlanks fun _ => .bind .current fun c => ?_
  cases c with
  | none => exact .fail _
  | some c =>
    dsimp only
    split_ifs
    · exact .number
    · exact .call env hinner
    · exact .bind .advance fun _ => .reference env
    · refine .bind .advance fun _ => .bind .openParen fun _ => ?_
      exact .bind (.nested env hinner fun _ hone => hone.chain .group) fun _ => .pure _
    · exact .bind .advance fun _ => .nested env hinner fun _ hone => hone
    · refine .bind .advance fun _ => ?_
      exact .bind (.nested env hinner fun _ hone => hone) fun _ => .pure _
    · exact .pure _
    · exact .fail _

end

end Forward

/-! ## All levels -/

/-- **Operands move forward** on all levels. -/
theorem forward_operand (env : Env ω σ) (levels : Nat) : Forward (operand env levels) := by
  induction levels with
  | zero => exact .operandWith env fun _ h => by cases h
  | succ levels ih =>
    refine .operandWith env fun one h => ?_
    obtain rfl : operand env levels = one := Option.some.inj h
    exact ih

/-- **Evaluation moves forward** through a whole text. -/
theorem forward_formula (env : Env ω σ) : Forward (formula env) :=
  .bind ((forward_operand env env.maxDepth).chain .whole) fun _ => .pure _

/-- **An error tells the position where the cursor stopped.** -/
theorem position_of_malformed {env : Env ω σ} {s t : Running σ} {p : Nat} {v : Violation}
    (hrun : formula env s = .error (.malformed p v) t) : p = t.cursor.position :=
  (forward_formula env).standsAt hrun p v rfl

end Scanner

end Formula
