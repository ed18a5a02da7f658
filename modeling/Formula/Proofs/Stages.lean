import Formula.Proofs.Registers
import Formula.Proofs.Soundness
import Mathlib.Logic.Relation

set_option relaxedAutoImplicit false
set_option autoImplicit false

/-!
# Stages of an evaluation

Evaluation is a recursion, and what it returns says nothing of the states in between. Here it is cut
into stages. A stage is a task, which names what is under way around it, and the state in which it
is taken up. Each step takes up one task: it reads no more than one operator, name, literal,
reference or parenthesis, or goes one level deeper or back. A step is a function of the stage, so
there is one run through the stages, and it comes to the result of the evaluation.

What is under way is kept in the order of nesting, and only in ways that can arise: an operand is
waited for by a chain or by a sign, a chain by the whole text, by a group or by a call.

## Main definitions

* `Formula.Scanner.link`, `Formula.Machine.opening` — what stands behind an operand, and what an
  operand starts with.
* `Formula.Machine.Pending` — what waits for an operand or for a chain.
* `Formula.Machine.Task` — what is done next.
* `Formula.Machine.Stage`, `Formula.Machine.Stage.next` — stages and the steps between them.
* `Formula.Machine.Stage.Steps` — runs through the stages.

## Main results

* `Formula.Scanner.chainRest_eq_link`, `Formula.Machine.operandWith_eq_opening` — chains and operands
  are read in the parts that the steps take up.
-/

namespace Formula

variable {ω σ α β : Type}

/-! ## The parts of chains -/

/-- **What stands behind an operand** of a chain. -/
inductive Link where
  /-- The chain ends. -/
  | ended (ending : Ending)
  /-- An operator, behind which an operand follows. -/
  | operator (op : Operator)

/-- Reads a link that starts with a character, or with the end of the text. -/
def Scanner.linkAt (scope : Scope) : Option Char → Scanner σ Link
  | none => if scope = .whole then pure (.ended .text) else fail .missingClose
  | some c => do
    if c = ')' then
      closeParen
      return .ended .close
    else if c = ',' ∧ scope = .argument then
      advance
      return .ended .comma
    else return .operator (← operator c)

/-- **Reads a link**: what stands behind an operand of a chain. -/
def Scanner.link (scope : Scope) : Scanner σ Link := do
  skipBlanks
  linkAt scope (← current)

/-- A link starts behind the blanks ahead. -/
lemma Scanner.link_apply (scope : Scope) (s : Running σ) :
    link scope s = linkAt scope s.settle.cursor.current s.settle := rfl

/-- Reads what is left of a chain behind a link, in at most so many rounds. -/
def Scanner.behindLink (one : Scanner σ Float) (scope : Scope) (rounds : Nat) (value : Float) :
    Link → Scanner σ (Float × Ending)
  | .ended ending => pure (value, ending)
  | .operator op => one >>= fun right => chainRest one scope rounds (op.apply value right)

/-- **The rest of a chain is a link**, and what is left behind it. -/
lemma Scanner.chainRest_eq_link (one : Scanner σ Float) (scope : Scope) (n : Nat) (r : Float) :
    chainRest one scope (n + 1) r = link scope >>= behindLink one scope n r := by
  simp only [chainRest, link, linkAt, bind_assoc]
  refine congrArg _ (funext fun _ => congrArg _ (funext fun c => ?_))
  cases c with
  | none => dsimp only [endOfText]; split_ifs <;> rfl
  | some c => dsimp only; split_ifs <;> simp only [bind_assoc, pure_bind, behindLink]

/-- **A chain ends where its scope lets it**, and with a closing parenthesis only if one is open. -/
lemma Scanner.allowed_of_link {scope : Scope} {ending : Ending} {s t : Running σ}
    (hrun : link scope s = .ok (.ended ending) t) :
    ending.Allowed scope t.cursor.rest ∧ (ending = .close → 0 < s.depth) := by
  rw [link_apply] at hrun
  cases hahead : s.settle.cursor.current with
  | none =>
    simp only [hahead, linkAt] at hrun
    split_ifs at hrun with hscope
    · obtain ⟨hending, rfl⟩ := pure_eq_ok.mp hrun
      cases hending
      exact ⟨⟨hscope, List.head?_eq_none_iff.mp hahead⟩, fun h => by cases h⟩
    · cases hrun
  | some c =>
    simp only [hahead, linkAt] at hrun
    split_ifs at hrun with hclose hcomma
    · obtain ⟨⟨⟩, u, hparen, hrun⟩ := bind_eq_ok.mp hrun
      obtain ⟨hending, rfl⟩ := pure_eq_ok.mp hrun
      cases hending
      rw [closeParen_apply] at hparen
      split_ifs at hparen with hdepth
      exact ⟨trivial, fun _ => Nat.pos_of_ne_zero hdepth⟩
    · cases hrun
      exact ⟨hcomma.2, fun h => by cases h⟩
    · obtain ⟨op, u, -, hrun⟩ := bind_eq_ok.mp hrun
      cases hrun

/-- **An operator takes a character**, and the host does not notice. -/
lemma Scanner.rest_of_link {scope : Scope} {op : Operator} {s t : Running σ}
    (hrun : link scope s = .ok (.operator op) t) :
    t.cursor.rest.length < s.cursor.rest.length ∧ t.host = s.host := by
  obtain ⟨p, w, cs, -, hrest, -, hsettle⟩ := s.exists_settle
  rw [link_apply, hsettle] at hrun
  cases cs with
  | nil =>
    simp only [Cursor.current, List.head?_nil, linkAt] at hrun
    split_ifs at hrun <;> cases hrun
  | cons c cs =>
    simp only [Cursor.current, List.head?_cons, linkAt] at hrun
    split_ifs at hrun
    · obtain ⟨-, u, -, hrun⟩ := bind_eq_ok.mp hrun
      cases hrun
    · cases hrun
    · obtain ⟨op', u, hop, hrun⟩ := bind_eq_ok.mp hrun
      cases hrun
      obtain ⟨-, -, -, -, hhost⟩ := spelling_of_operator hop
      have hlength := length_rest_of_operator hop
      rw [hrest, List.length_append, List.length_cons]
      exact ⟨by omega, hhost⟩

namespace Machine

/-! ## The start of an operand -/

/-- **What an operand starts with.** -/
inductive Opening where
  /-- The operand has no parts, and this is its value. -/
  | value (x : Float)
  /-- A sign. -/
  | sign (negative : Bool)
  /-- The parenthesis of a group. -/
  | group
  /-- A name with the parenthesis of a call. -/
  | call (name : String)

/-- Reads the name of a function and the parenthesis behind it. -/
def callName : Scanner (Registers σ) String := do
  clear
  gather (Text.lower (← Scanner.takeRun Char.isAlphanum))
  Scanner.skipBlanks
  let name := String.ofList (← gathered)
  if ← Scanner.accept '(' then
    Scanner.openParen
    return name
  else Scanner.fail (.missingOpen name)

section

variable (env : Env ω (Registers σ))

/-- **Reads what an operand starts with.** -/
def opening : Scanner (Registers σ) Opening := do
  Scanner.skipBlanks
  match ← Scanner.current with
  | none => Scanner.fail .missingOperand
  | some c =>
    if c.isDigit then return .value (← Scanner.number)
    else if c.isAlpha then return .call (← callName)
    else if c = '$' then
      Scanner.advance
      return .value (← reference env)
    else if c = '(' then
      Scanner.advance
      Scanner.openParen
      return .group
    else if c = '+' then
      Scanner.advance
      return .sign false
    else if c = '-' then
      Scanner.advance
      return .sign true
    else if c = ')' then return .value 0.0
    else Scanner.fail (.unexpected c)

/-- The number that a sign makes of another. -/
def signed (negative : Bool) (x : Float) : Float :=
  if negative then -x else x

variable (inner : Option (Scanner (Registers σ) Float))

/-- Reads the rest of an operand behind what it starts with. -/
def behind : Opening → Scanner (Registers σ) Float
  | .value x => pure x
  | .sign negative => nested env inner id >>= fun x => pure (signed negative x)
  | .group => nested env inner (fun one => Scanner.chain one .group) >>= fun p => pure p.1
  | .call name =>
    match Builtin.named? name with
    | none => throw (.unknownFunction name)
    | some f => nested env inner (Scanner.arguments f) >>= Scanner.invoke env f

/-- **An operand is what it starts with**, and the rest. -/
lemma operandWith_eq_opening : operandWith env inner = opening env >>= behind env inner := by
  simp only [operandWith, opening, bind_assoc]
  refine congrArg _ (funext fun _ => congrArg _ (funext fun c => ?_))
  cases c with
  | none => rfl
  | some c =>
    dsimp only
    split_ifs
    · simp only [bind_assoc, pure_bind, behind, bind_pure]
    · simp only [call, callName, bind_assoc]
      iterate 6 refine congrArg _ (funext fun _ => ?_)
      split_ifs <;> rfl
    · simp only [bind_assoc, pure_bind, behind, bind_pure]
    · simp only [bind_assoc, pure_bind, behind]
    · exact congrArg _ (funext fun _ => (bind_pure (nested env inner id)).symm)
    · simp only [bind_assoc, pure_bind, behind]
      rfl
    · rfl
    · rfl

end

/-! ## What is under way -/

/-- **What is waited for.** -/
inductive Awaited where
  | operand
  | chain

/-- **What waits** for an operand or for a chain, from the inside out. -/
inductive Pending : Awaited → Type where
  /-- A chain waits for its first operand. -/
  | first (outer : Pending .chain) : Pending .operand
  /-- A chain waits for the right operand of an operator, with its value so far. -/
  | right (value : Float) (op : Operator) (outer : Pending .chain) : Pending .operand
  /-- A sign waits for the operand behind it. -/
  | sign (negative : Bool) (outer : Pending .operand) : Pending .operand
  /-- The evaluation waits for the chain of the whole text. -/
  | whole : Pending .chain
  /-- A group waits for the chain in its parentheses. -/
  | group (outer : Pending .operand) : Pending .chain
  /-- A call waits for an argument, with the one before it. -/
  | argument (f : Builtin) (seen : Option Float) (outer : Pending .operand) : Pending .chain

namespace Pending

/-- What a chain stands in. -/
def scope : Pending .chain → Scope
  | whole => .whole
  | group _ => .group
  | argument _ _ _ => .argument

/-- **How many groups and calls are open**: those that still wait for what is in their
parentheses. -/
def opened : {a : Awaited} → Pending a → Nat
  | _, first outer => outer.opened
  | _, right _ _ outer => outer.opened
  | _, sign _ outer => outer.opened
  | _, whole => 0
  | _, group outer => outer.opened + 1
  | _, argument _ _ outer => outer.opened + 1

/-- **How many groups and calls are open around a chain**, without the one that the chain stands
in. -/
def around : Pending .chain → Nat
  | whole => 0
  | group outer => outer.opened
  | argument _ _ outer => outer.opened

/-- **How many levels have been entered** and not been left: one for each sign, group and call. -/
def levels : {a : Awaited} → Pending a → Nat
  | _, first outer => outer.levels
  | _, right _ _ outer => outer.levels
  | _, sign _ outer => outer.levels + 1
  | _, whole => 0
  | _, group outer => outer.levels + 1
  | _, argument _ _ outer => outer.levels + 1

end Pending

/-- **What is entered** with a level of its own. -/
inductive Inside where
  | sign (negative : Bool)
  | group
  | call (f : Builtin)

/-- How many parentheses have been opened for what is entered. -/
def Inside.opened : Inside → Nat
  | sign _ => 0
  | group => 1
  | call _ => 1

/-- What waits for the first operand inside. -/
def Inside.waiting (outer : Pending .operand) : Inside → Pending .operand
  | sign negative => .sign negative outer
  | group => .first (.group outer)
  | call f => .first (.argument f none outer)

/-! ## Tasks -/

/-- **What is done next.** -/
inductive Task where
  /-- An operand is read. -/
  | operand (outer : Pending .operand)
  /-- The function of a call is looked up, whose parenthesis has been opened. -/
  | lookUp (name : String) (outer : Pending .operand)
  /-- A level is entered, unless the limit has been reached. -/
  | enter (inside : Inside) (outer : Pending .operand)
  /-- An operand has been read, and its value is handed over. -/
  | given (x : Float) (outer : Pending .operand)
  /-- The rest of a chain is read, with its value so far. -/
  | link (value : Float) (outer : Pending .chain)
  /-- A chain has been read, and its value is handed over. -/
  | ended (x : Float) (ending : Ending) (outer : Pending .chain)
  /-- The arguments of a call are complete, and their level is left. -/
  | complete (f : Builtin) (args : Arguments) (outer : Pending .operand)
  /-- A function is called. -/
  | invoke (f : Builtin) (args : Arguments) (outer : Pending .operand)
  /-- The evaluation stops with an error: so many groups and calls have been open then, and so many
  levels are still to be left. -/
  | stopped (error : EvalError) (opened levels : Nat)

/-- What is done behind the start of an operand. -/
def Task.ofOpening (outer : Pending .operand) : Opening → Task
  | .value x => .given x outer
  | .sign negative => .enter (.sign negative) outer
  | .group => .enter .group outer
  | .call name => .lookUp name outer

/-- What is done behind a link of a chain. -/
def Task.ofLink (value : Float) (outer : Pending .chain) : Link → Task
  | .ended ending => .ended value ending outer
  | .operator op => .operand (.right value op outer)

/-- The state one level deeper. -/
def deeper (s : Running (Registers σ)) : Running (Registers σ) :=
  { s with host := { s.host with nesting := s.host.nesting + 1 } }

/-- The state one level back. -/
def back (s : Running (Registers σ)) : Running (Registers σ) :=
  { s with host := { s.host with nesting := s.host.nesting - 1 } }

/-- Enters a level. -/
def enterLevel : Scanner (Registers σ) Unit :=
  write fun r => { r with nesting := r.nesting + 1 }

/-- Leaves a level. -/
def leaveLevel : Scanner (Registers σ) Unit :=
  write fun r => { r with nesting := r.nesting - 1 }

namespace Task

/-- **How many groups and calls are opened and not yet closed.** A group or a call is opened by its
parenthesis, and closed by the one that ends the chain in it; an error closes none. -/
def opened : Task → Nat
  | operand outer => outer.opened
  | lookUp _ outer => outer.opened + 1
  | enter inside outer => outer.opened + inside.opened
  | given _ outer => outer.opened
  | link _ outer => outer.opened
  | ended _ .close outer => outer.around
  | ended _ _ outer => outer.opened
  | complete _ _ outer => outer.opened
  | invoke _ _ outer => outer.opened
  | stopped _ opened _ => opened

/-- **How many levels have been entered** and not been left. -/
def levels : Task → Nat
  | operand outer => outer.levels
  | lookUp _ outer => outer.levels
  | enter _ outer => outer.levels
  | given _ outer => outer.levels
  | link _ outer => outer.levels
  | ended _ _ outer => outer.levels
  | complete _ _ outer => outer.levels + 1
  | invoke _ _ outer => outer.levels
  | stopped _ _ levels => levels

variable (env : Env ω (Registers σ))

/-- **Takes up a task**, and gives the next one; there is none behind the end of the whole text, and
none when the evaluation has stopped and all levels are left. -/
def run : Task → Option (Scanner (Registers σ) Task)
  | operand outer => some (ofOpening outer <$> opening env)
  | lookUp name outer => some <|
    match Builtin.named? name with
    | none => throw (.unknownFunction name)
    | some f => pure (.enter (.call f) outer)
  | enter inside outer => some do
    let levels ← Scanner.onHost fun r => (r.nesting, r)
    if env.maxDepth ≤ levels then throw (.tooDeep env.maxDepth)
    else
      enterLevel
      return .operand (inside.waiting outer)
  | given x (.first outer) => some (pure (.link x outer))
  | given x (.right value op outer) => some (pure (.link (op.apply value x) outer))
  | given x (.sign negative outer) => some do
    leaveLevel
    return .given (signed negative x) outer
  | link value outer => some (ofLink value outer <$> Scanner.link outer.scope)
  | ended _ _ .whole => none
  | ended x _ (.group outer) => some do
    leaveLevel
    return .given x outer
  | ended x ending (.argument f seen outer) => some <|
    match f.take seen x (ending == .close) with
    | .complete args => pure (.complete f args outer)
    | .more => pure (.operand (.first (.argument f (some x) outer)))
    | .wrong => throw (.argumentCount f)
  | complete f args outer => some do
    leaveLevel
    return .invoke f args outer
  | invoke f args outer => some ((given · outer) <$> Scanner.invoke env f args)
  | stopped _ _ 0 => none
  | stopped error opened (levels + 1) => some do
    leaveLevel
    return .stopped error opened levels

end Task

/-! ## Stages -/

/-- **A stage of an evaluation**: a task, and the state in which it is taken up. -/
structure Stage (σ : Type) where
  /-- What is done next. -/
  task : Task
  /-- The state, with the registers. -/
  state : Running (Registers σ)

namespace Stage

variable (env : Env ω (Registers σ))

/-- The stage in which an evaluation begins, in a state. -/
def initial (s : Running (Registers σ)) : Stage σ :=
  ⟨.operand (.first .whole), s⟩

/-- **The next stage.** A task that ends with an error leaves what is under way as it is. -/
def next (a : Stage σ) : Option (Stage σ) :=
  (a.task.run env).map fun m =>
    match m a.state with
    | .ok task t => ⟨task, t⟩
    | .error e t => ⟨.stopped e a.task.opened a.task.levels, t⟩

/-- The function of a call is looked up under its name. -/
lemma next_lookUp (name : String) (outer : Pending .operand) (s : Running (Registers σ)) :
    next env ⟨.lookUp name outer, s⟩ = some
      (match Builtin.named? name with
      | none => ⟨.stopped (.unknownFunction name) (outer.opened + 1) outer.levels, s⟩
      | some f => ⟨.enter (.call f) outer, s⟩) := by
  simp only [next, Task.run, Option.map_some]
  cases Builtin.named? name <;> rfl

/-- A level is entered below the limit. -/
lemma next_enter (inside : Inside) (outer : Pending .operand) (s : Running (Registers σ)) :
    next env ⟨.enter inside outer, s⟩ = some
      (if env.maxDepth ≤ s.host.nesting then
        ⟨.stopped (.tooDeep env.maxDepth) (outer.opened + inside.opened) outer.levels, s⟩
      else ⟨.operand (inside.waiting outer), deeper s⟩) := by
  simp only [next, Task.run, Option.map_some]
  rw [Scanner.bind_of_ok (Scanner.onHost_apply _ _)]
  dsimp only
  split_ifs <;> rfl

/-- What an argument makes of a call is done. -/
lemma next_argument (x : Float) (ending : Ending) (f : Builtin) (seen : Option Float)
    (outer : Pending .operand) (s : Running (Registers σ)) :
    next env ⟨.ended x ending (.argument f seen outer), s⟩ = some
      (match f.take seen x (ending == .close) with
      | .complete args => ⟨.complete f args outer, s⟩
      | .more => ⟨.operand (.first (.argument f (some x) outer)), s⟩
      | .wrong => ⟨.stopped (.argumentCount f)
          (Task.ended x ending (.argument f seen outer)).opened (outer.levels + 1), s⟩) := by
  simp only [next, Task.run, Option.map_some]
  cases f.take seen x (ending == .close) <;> rfl

/-- The result of an evaluation that has come to its end. -/
def result? (a : Stage σ) : Option (Except EvalError Float) :=
  match a.task with
  | .ended x _ .whole => some (.ok x)
  | .stopped e _ 0 => some (.error e)
  | _ => none

/-- **Runs through the stages**, in any number of steps. -/
def Steps : Stage σ → Stage σ → Prop :=
  Relation.ReflTransGen fun a b => a.next env = some b

end Stage

end Machine

end Formula
