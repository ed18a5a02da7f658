import Formula.Machine
import Formula.Options
import Formula.Pool

set_option relaxedAutoImplicit false
set_option autoImplicit false

/-!
# Engines

An engine evaluates texts for a host. It keeps its machines in a pool, samples the host's clock once
for every evaluation, and takes the machine back whether the evaluation succeeds or not. Room for
the machines that the pool keeps is reserved when the engine is made.

## Main definitions

* `Formula.Engine` — the parts of an engine.
* `Formula.Engine.create` — makes an engine, if there is room for its machines.
* `Formula.Engine.eval` — evaluates a text.
* `Formula.Engine.evalAll` — evaluates texts in turn, up to the first error.

## Main results

* `Formula.Engine.create_eq` — an engine that is made is the new one.
-/

namespace Formula

instance : Recyclable Machine where
  blank := Machine.blank
  recycle := Machine.recycle

/-- **An engine.** -/
structure Engine (ω σ : Type) where
  /-- What was set for it. -/
  options : Options
  /-- Its machines that are out of use. -/
  pool : Pool Machine
  /-- How objects are read. -/
  model : ObjectModel ω σ
  /-- The clock. -/
  clock : Clock σ
  /-- Where random numbers come from. -/
  random : RandomSource σ

namespace Engine

variable {ω σ : Type}

/-- The new engine for a host, once there is room for its machines. -/
def new (options : Options) (model : ObjectModel ω σ) (clock : Clock σ)
    (random : RandomSource σ) : Engine ω σ :=
  ⟨options, Pool.empty options.poolCapacity, model, clock, random⟩

/-- **Makes an engine** for a host, if there is room for the machines that it keeps. -/
def create (memory : Memory) (options : Options) (model : ObjectModel ω σ) (clock : Clock σ)
    (random : RandomSource σ) : Except Memory.Fault (Engine ω σ) := do
  let pool ← Pool.new memory Machine.size options.poolCapacity
  return ⟨options, pool, model, clock, random⟩

/-- An engine that is made is the new one, and whether it is made is a matter of memory alone. -/
theorem create_eq (memory : Memory) (options : Options) (model : ObjectModel ω σ) (clock : Clock σ)
    (random : RandomSource σ) :
    create memory options model clock random =
      (memory.reserve Machine.size options.poolCapacity).map fun _ =>
        new options model clock random := by
  unfold create Pool.new
  cases memory.reserve Machine.size options.poolCapacity <;> rfl

/-- What an evaluation is given at a tick. -/
def env (engine : Engine ω σ) (context : ω) (tick : Tick) : Env ω σ :=
  ⟨context, engine.model, engine.random, tick, engine.options.maxDepth⟩

/-- **Evaluates a text.** Gives the value or the error, the engine, and the state of the host. -/
def eval (engine : Engine ω σ) (text : String) (context : ω) (host : σ) :
    Except EvalError Float × Engine ω σ × σ :=
  let (machine, pool) := engine.pool.acquire
  let (tick, host) := engine.clock host
  let (result, machine, host) := machine.eval (engine.env context tick) text host
  (result, { engine with pool := pool.release machine }, host)

/-- **Evaluates texts in turn**; the first error ends it, and no later text is evaluated. -/
def evalAll (engine : Engine ω σ) (context : ω) (host : σ) :
    List String → Except EvalError (List Float) × Engine ω σ × σ
  | [] => (.ok [], engine, host)
  | text :: texts =>
    match engine.eval text context host with
    | (.error error, engine, host) => (.error error, engine, host)
    | (.ok x, engine, host) =>
      match engine.evalAll context host texts with
      | (.error error, engine, host) => (.error error, engine, host)
      | (.ok xs, engine, host) => (.ok (x :: xs), engine, host)

end Engine

end Formula
