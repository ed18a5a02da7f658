import Formula.Engine
import Formula.Proofs.Registers

set_option relaxedAutoImplicit false
set_option autoImplicit false

/-!
# What an engine remembers

An engine keeps its machines between calls, and a machine is kept also after a call that has stopped
with an error half-way through a text. Nothing of that shows: each call gives what a new machine
gives, at its own sample of the clock. All that an engine remembers is that it has made a machine,
which stays in the pool from the first call on if there is room for it.

## Main definitions

* `Formula.Engine.session` — calls made on an engine in turn.
* `Formula.Engine.answer` — a call without a pool.

## Main results

* `Formula.Engine.eval_eq` — a call on an engine is one without a pool.
* `Formula.Engine.session_results`, `Formula.Engine.session_idle` — the results of a session, and
  how many machines are parked behind it.
* `Formula.history_independent` — the results of calls do not depend on the calls before.
-/

namespace Formula

variable {ω σ : Type}

namespace Engine

/-- **What is left of a session**: the results of its calls, the engine, and the host's state. -/
structure Session (ω σ : Type) where
  /-- The results, one for each call. -/
  results : List (Except EvalError Float)
  /-- The engine behind the last call. -/
  engine : Engine ω σ
  /-- The host's state behind the last call. -/
  host : σ

/-- **Calls made on an engine in turn**, a text and a context each. An error ends its own call
only. -/
def session (engine : Engine ω σ) (host : σ) : List (String × ω) → Session ω σ
  | [] => ⟨[], engine, host⟩
  | (text, context) :: calls =>
    let (result, engine, host) := engine.eval text context host
    let rest := engine.session host calls
    { rest with results := result :: rest.results }

/-- **A call without a pool**: a new machine evaluates the text at a sample of the clock. -/
def answer (engine : Engine ω σ) (text : String) (context : ω) :
    StateM σ (Except EvalError Float) := fun host =>
  let (tick, host) := engine.clock host
  let (result, _, host) := Machine.blank.eval (engine.env context tick) text host
  (result, host)

/-- The engine behind a call: a machine has been handed out and has come back blank. -/
def evaluated (engine : Engine ω σ) : Engine ω σ :=
  { engine with pool := engine.pool.acquire.2.release Machine.blank }

/-- **A call on an engine is one without a pool**, whatever its machines were used for; and whatever
comes of it, it leaves a blank machine with the pool. -/
theorem eval_eq (engine : Engine ω σ) (text : String) (context : ω) (host : σ) :
    engine.eval text context host =
      ((engine.answer text context host).1, engine.evaluated,
        (engine.answer text context host).2) := by
  let env := engine.env context (engine.clock host).1
  let taken := (engine.clock host).2
  have hused : engine.pool.acquire.1.eval env text taken = Machine.blank.eval env text taken := by
    rw [Machine.eval_eq, Machine.eval_eq Machine.blank]
  have hleft : (Machine.blank.eval env text taken).2.1 = Machine.blank := by
    rw [Machine.eval_eq]
  show ((engine.pool.acquire.1.eval env text taken).1,
    { engine with pool :=
        engine.pool.acquire.2.release (engine.pool.acquire.1.eval env text taken).2.1 },
    (engine.pool.acquire.1.eval env text taken).2.2) = _
  rw [hused, hleft]
  rfl

/-- **After a call a machine is parked** if there is room for one, and no more machines than before
unless none was. -/
theorem idle_evaluated (engine : Engine ω σ) :
    engine.evaluated.pool.idle = min (max engine.pool.idle 1) engine.pool.capacity := by
  have hle := engine.pool.idle_le_capacity
  simp only [evaluated, Pool.idle_release, Pool.idle_acquire, Pool.capacity_acquire]
  omega

/-- A call leaves the capacity of the pool. -/
lemma capacity_evaluated (engine : Engine ω σ) :
    engine.evaluated.pool.capacity = engine.pool.capacity := by
  simp [evaluated]

/-- A session starts with a call without a pool. -/
lemma session_cons (engine : Engine ω σ) (host : σ) (call : String × ω)
    (calls : List (String × ω)) :
    engine.session host (call :: calls) =
      let rest := engine.evaluated.session (engine.answer call.1 call.2 host).2 calls
      { rest with results := (engine.answer call.1 call.2 host).1 :: rest.results } := by
  rw [session, eval_eq]

/-! ## Sessions -/

/-- **The results of a session** are those of calls without a pool, each in the state in which the
calls before it have left the host.

**Proof sketch.** Induction on the calls. The engine behind the first call answers as the engine in
front of it, since a call without a pool does not ask what the pool is. -/
theorem session_results (engine : Engine ω σ) (host : σ) (calls : List (String × ω)) (n : Nat) :
    (engine.session host calls).results[n]? = calls[n]?.map fun call =>
      (engine.answer call.1 call.2 (engine.session host (calls.take n)).host).1 := by
  induction calls generalizing engine host n with
  | nil => rfl
  | cons call calls ih =>
    rw [session_cons]
    cases n with
    | zero => rfl
    | succ n =>
      rw [List.take_succ_cons, session_cons]
      exact ih engine.evaluated _ n

/-- **The machines parked behind a session** are those that were parked before, and one at least if
there were calls and there is room.

**Proof sketch.** Induction on the calls: the first one leaves one machine parked at least. -/
theorem session_idle (engine : Engine ω σ) (host : σ) (calls : List (String × ω)) :
    (engine.session host calls).engine.pool.idle =
      min (max engine.pool.idle (min 1 calls.length)) engine.pool.capacity := by
  induction calls generalizing engine host with
  | nil =>
    have hle := engine.pool.idle_le_capacity
    show engine.pool.idle = min (max engine.pool.idle 0) engine.pool.capacity
    omega
  | cons call calls ih =>
    rw [session_cons, List.length_cons]
    refine (ih engine.evaluated _).trans ?_
    rw [idle_evaluated, capacity_evaluated]
    omega

/-- **A session takes as many samples as it has calls** when each call takes one, whatever comes of
it. -/
lemma session_samples {engine : Engine ω Nat}
    (hone : ∀ text context taken, (engine.answer text context taken).2 = taken + 1) (taken : Nat)
    (calls : List (String × ω)) : (engine.session taken calls).host = taken + calls.length := by
  induction calls generalizing engine taken with
  | nil => rfl
  | cons call calls ih =>
    rw [session_cons, hone, List.length_cons, Nat.add_comm calls.length, ← Nat.add_assoc]
    have hrest : ∀ text context taken,
        (engine.evaluated.answer text context taken).2 = taken + 1 := hone
    exact ih hrest (taken + 1)

/-- **A call takes one sample of a clock** that shows the ticks of a sequence, and gives what a new
machine gives at that tick: a host that answers by pure functions leaves the number of samples
alone. -/
lemma answer_new (options : Options) (model : ObjectModel ω Unit) (random : RandomSource Unit)
    (ticks : Nat → Tick) (text : String) (context : ω) (taken : Nat) :
    (Engine.new options (model.within .nothing) (Clock.sequence ticks)
      (random.within .nothing)).answer text context taken =
      ((Machine.blank.eval ⟨context, model, random, ticks taken, options.maxDepth⟩ text ()).1,
        taken + 1) := by
  have hpart : (Part.nothing : Part Nat Unit).Carries fun n _ => n = taken + 1 :=
    ⟨fun _ => rfl, fun _ h => h⟩
  have halike := Env.alike_within hpart context model random (ticks taken) options.maxDepth
  obtain ⟨hresult, htaken⟩ := halike.eval .blank text (taken + 1) () rfl
  let env : Env ω Nat :=
    ⟨context, model.within .nothing, random.within .nothing, ticks taken, options.maxDepth⟩
  show ((Machine.blank.eval env text (taken + 1)).1,
    (Machine.blank.eval env text (taken + 1)).2.2) = _
  rw [Machine.eval_eq, Machine.eval_eq]
  exact Prod.ext hresult htaken

end Engine

/-- **What an engine gives does not depend on its history.** In every sequence of calls on a new
engine, with successes and errors in any order, against a host that answers by pure functions and a
clock that shows any sequence of ticks: the result of each call is that of a new machine on its text
and context at its tick; the clock is sampled exactly once for each call; and behind the calls one
machine is parked, unless there were none or there is no room. And a machine in any state, with
anything left of a text, a name, open parentheses or levels, gives what an evaluation from nothing
gives, and nothing is left in it afterwards. -/
theorem history_independent :
    (∀ {ω : Type} (options : Options) (model : ObjectModel ω Unit) (random : RandomSource Unit)
      (ticks : Nat → Tick) (calls : List (String × ω)),
      let engine := Engine.new options (model.within .nothing) (Clock.sequence ticks)
        (random.within .nothing)
      let run := engine.session 0 calls
      (∀ n : Nat, run.results[n]? = calls[n]?.map fun call =>
        (Machine.blank.eval ⟨call.2, model, random, ticks n, options.maxDepth⟩ call.1 ()).1) ∧
        run.host = calls.length ∧
        run.engine.pool.idle = min (min 1 calls.length) options.poolCapacity) ∧
    ∀ {ω σ : Type} (machine : Machine) (env : Env ω σ) (text : String) (host : σ),
      machine.eval env text host =
        ((Evaluator.blank.eval env text host).1, Machine.blank,
          (Evaluator.blank.eval env text host).2.2) := by
  refine ⟨?_, fun machine env text host => machine.eval_eq env text host⟩
  intro ω options model random ticks calls engine run
  have hanswer := Engine.answer_new options model random ticks
  have hsamples : ∀ calls : List (String × ω), (engine.session 0 calls).host = calls.length := by
    intro calls
    have hone : ∀ text context taken, (engine.answer text context taken).2 = taken + 1 := by
      intro text context taken
      rw [hanswer]
    exact (Engine.session_samples hone 0 calls).trans (Nat.zero_add _)
  refine ⟨fun n => ?_, hsamples calls, ?_⟩
  · rw [Engine.session_results, hsamples]
    refine Option.map_congr fun call hcall => ?_
    have hn : n < calls.length := (List.getElem?_eq_some_iff.mp hcall).1
    rw [hanswer, List.length_take, Nat.min_eq_left (Nat.le_of_lt hn)]
  · rw [Engine.session_idle]
    show min (max 0 (min 1 calls.length)) options.poolCapacity = _
    rw [Nat.zero_max]

end Formula
