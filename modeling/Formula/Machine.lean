import Formula.Evaluation

set_option relaxedAutoImplicit false
set_option autoImplicit false

/-!
# Machines

A machine evaluates a text with registers that outlive the evaluation. Besides the cursor and the
number of open parentheses they are the characters of the name gathered last, and how many levels
have been entered. The register of a name is wiped before the name is gathered, and a level is left
also when what is read on it stops with an error; what an evaluation leaves half-way otherwise is
wiped when the machine is recycled.

Chains and arguments are read as they are everywhere, from operands that use the registers.

## Main definitions

* `Formula.Registers` — the registers that a running evaluation writes to.
* `Formula.Machine` — a machine, which is used again.
* `Formula.Machine.operand` — reads an operand with the registers of a machine.
* `Formula.Machine.eval` — evaluates a whole text.
-/

namespace Formula

/-- **The registers** that a running evaluation writes to, beside the state of the host. -/
structure Registers (σ : Type) where
  /-- The characters of the name gathered last. -/
  scratch : List Char
  /-- How many levels have been entered. -/
  nesting : Nat
  /-- The host's state. -/
  host : σ

/-- The host's state, as a part of the registers. -/
def Registers.part {σ : Type} : Part (Registers σ) σ where
  get r := r.host
  set h r := { r with host := h }

/-- An evaluation whose host's state lies beside registers. -/
def Env.onRegisters {ω σ : Type} (env : Env ω σ) : Env ω (Registers σ) :=
  ⟨env.context, env.model.within Registers.part, env.random.within Registers.part, env.tick,
    env.maxDepth⟩

/-- **A machine**, which is kept between evaluations and used again. -/
structure Machine extends Evaluator where
  /-- The characters of the name gathered last. -/
  scratch : List Char
  /-- How many levels have been entered. -/
  nesting : Nat
deriving Repr, DecidableEq

namespace Machine

variable {ω σ α : Type}

/-- The bytes of a machine, which are nine words: three each for its text and for the name gathered
last, and one each for the position in the text and the two counters. -/
def size : Nat := 9 * 8

/-- A new machine. -/
def blank : Machine := ⟨Evaluator.blank, [], 0⟩

/-- A machine with nothing left of its last text. -/
def recycle (m : Machine) : Machine :=
  { m with cursor := Cursor.start [], scratch := [], depth := 0, nesting := 0 }

/-- The state in which a machine starts on a text. -/
def start (m : Machine) (text : String) (host : σ) : Running (Registers σ) :=
  ⟨m.toEvaluator.load text, ⟨m.scratch, m.nesting, host⟩⟩

/-- The machine that an evaluation leaves behind. -/
def left (s : Running (Registers σ)) : Machine :=
  ⟨s.toEvaluator, s.host.scratch, s.host.nesting⟩

/-! ## Registers -/

/-- Writes to the registers. -/
def write (f : Registers σ → Registers σ) : Scanner (Registers σ) Unit :=
  Scanner.onHost fun r => ((), f r)

/-- Wipes the register of the name. -/
def clear : Scanner (Registers σ) Unit :=
  write fun r => { r with scratch := [] }

/-- Gathers characters in the register of the name. -/
def gather (cs : List Char) : Scanner (Registers σ) Unit :=
  write fun r => { r with scratch := r.scratch ++ cs }

/-- What has been gathered. -/
def gathered : Scanner (Registers σ) (List Char) :=
  Scanner.onHost fun r => (r.scratch, r)

/-- Counts a level while something is read on it, whatever comes of it. -/
def counted (m : Scanner (Registers σ) α) : Scanner (Registers σ) α := fun s =>
  match m { s with host := { s.host with nesting := s.host.nesting + 1 } } with
  | .ok a t => .ok a { t with host := { t.host with nesting := t.host.nesting - 1 } }
  | .error e t => .error e { t with host := { t.host with nesting := t.host.nesting - 1 } }

/-! ## References -/

section

variable (env : Env ω (Registers σ))

/-- Reads the name of a constant. -/
def namedConstant : Scanner (Registers σ) Float := do
  clear
  if ← Scanner.accept '-' then gather ['-']
  gather (Text.lowerName (← Scanner.takeRun Text.isWordChar))
  return (constant? (String.ofList (← gathered)) env.tick).getD 0.0

/-- Reads a path of at most so many names, each of which is looked up as soon as it is gathered, on
what the one before it has given. -/
def memberPath : Nat → Option ω → Scanner (Registers σ) Float
  | 0, _ => Scanner.fail .missingMember
  | rounds + 1, target => do
    clear
    gather (← Scanner.takeRun Text.isWordChar)
    let name ← gathered
    if name = [] then Scanner.fail .missingMember
    else
      let found ← match target with
        | some object => Scanner.onHost (env.model.member object (String.ofList name))
        | none => pure none
      if ← Scanner.accept '.' then memberPath rounds found
      else match found with
        | some object => Scanner.onHost (env.model.number object)
        | none => return 0.0

/-- Reads a path. Each name but the last has a point behind it, so there are no more names than
characters ahead, but for one that may be missing. -/
def path (target : Option ω) : Scanner (Registers σ) Float := do
  memberPath env ((← Scanner.cursor).rest.length + 1) target

/-- Reads a type name behind its parenthesis, and the path behind it. -/
def componentPath : Scanner (Registers σ) Float := do
  clear
  gather (← Scanner.takeRun fun c => c ≠ ')')
  if ← Scanner.accept ')' then
    if ← Scanner.accept '.' then
      let name := String.ofList (Text.trimBlanks (← gathered))
      let component ← Scanner.onHost (env.model.component env.context name)
      path env component
    else Scanner.fail (.missingPath (String.ofList (← gathered)))
  else Scanner.fail .openTypeName

/-- Reads a reference behind its mark. -/
def reference : Scanner (Registers σ) Float := do
  match ← Scanner.current with
  | none => Scanner.wholeContext env
  | some c =>
    if c = '-' ∧ (← Scanner.next).any Char.isAlpha then namedConstant env
    else if Scanner.endsOperand c then Scanner.wholeContext env
    else if c = '.' then
      Scanner.advance
      path env (some env.context)
    else if c = '(' then
      Scanner.advance
      componentPath env
    else if Text.isWordChar c then namedConstant env
    else Scanner.fail (.notReference c)

/-! ## Operands -/

variable (inner : Option (Scanner (Registers σ) Float))

/-- Goes one level deeper, unless the register tells that the limit has been reached. -/
def nested (body : Scanner (Registers σ) Float → Scanner (Registers σ) α) :
    Scanner (Registers σ) α := do
  let levels ← Scanner.onHost fun r => (r.nesting, r)
  if env.maxDepth ≤ levels then throw (.tooDeep env.maxDepth)
  else
    -- a machine starts with as many levels as the limit allows, so there is one left
    match inner with
    | some one => counted (body one)
    | none => throw (.tooDeep env.maxDepth)

/-- Reads a call from its name on. -/
def call : Scanner (Registers σ) Float := do
  clear
  gather (Text.lower (← Scanner.takeRun Char.isAlphanum))
  Scanner.skipBlanks
  let name := String.ofList (← gathered)
  if ← Scanner.accept '(' then
    Scanner.openParen
    match Builtin.named? name with
    | none => throw (.unknownFunction name)
    | some f =>
      let args ← nested env inner (Scanner.arguments f)
      match ← Scanner.onHost (f.call env.random args) with
      | some result => return result
      | none => throw (.argumentCount f)
  else Scanner.fail (.missingOpen name)

/-- Reads an operand; `inner` reads one that is nested a level deeper. -/
def operandWith : Scanner (Registers σ) Float := do
  Scanner.skipBlanks
  match ← Scanner.current with
  | none => Scanner.fail .missingOperand
  | some c =>
    if c.isDigit then Scanner.number
    else if c.isAlpha then call env inner
    else if c = '$' then
      Scanner.advance
      reference env
    else if c = '(' then
      Scanner.advance
      Scanner.openParen
      let (x, _) ← nested env inner fun one => Scanner.chain one .group
      return x
    else if c = '+' then
      Scanner.advance
      nested env inner id
    else if c = '-' then
      Scanner.advance
      let x ← nested env inner id
      return -x
    else if c = ')' then return 0.0
    else Scanner.fail (.unexpected c)

/-- **Reads an operand** that nests at most so many levels. -/
def operand : Nat → Scanner (Registers σ) Float
  | 0 => operandWith env none
  | levels + 1 => operandWith env (some (operand levels))

/-- Reads a whole text. -/
def formula : Scanner (Registers σ) Float := do
  let (x, _) ← Scanner.chain (operand env env.maxDepth) .whole
  return x

end

/-- **Evaluates a text** on a machine in any state: it is recycled before and after. Gives the value
or the error, the machine, and the state of the host. -/
def eval (m : Machine) (env : Env ω σ) (text : String) (host : σ) :
    Except EvalError Float × Machine × σ :=
  match formula env.onRegisters (m.recycle.start text host) with
  | .ok x s => (.ok x, (left s).recycle, s.host.host)
  | .error error s => (.error error, (left s).recycle, s.host.host)

end Machine

end Formula
