import Formula.Proofs.Progress
import Formula.Proofs.Stages.Arrival
import Formula.Proofs.Stages.Balance

set_option relaxedAutoImplicit false
set_option autoImplicit false

/-!
# Parentheses and levels

A machine counts the parentheses that are open in one register and the levels that are entered in
another. Groups and calls are opened in two places and closed in a third one, and an operand may be
left out in front of a parenthesis that it does not read; still the counts are right at each stage
of each evaluation. So a closing parenthesis that belongs to nothing is never taken for the end of
the text, and what is evaluated is all of the text.

## Main definitions

* `Formula.Machine.Passes` — the stages that a machine passes on a text.
* `Formula.Machine.Stage.Returns` — a part of an evaluation with what it leaves of the counts.

## Main results

* `Formula.Machine.Passes.balanced` — the stages that a machine passes are balanced.
* `Formula.Machine.Passes.returns_operand`, `Formula.Machine.Passes.returns_chain` — what operands
  and chains leave of the counts.
* `Formula.Machine.bookkeeping` — the counts are right, and the whole text is read.
-/

namespace Formula.Machine

variable {ω σ α : Type}

/-- **The stages that a machine passes** on a text. -/
def Passes (m : Machine) (env : Env ω σ) (text : String) (host : σ) (a : Stage σ) : Prop :=
  Stage.Steps env.onRegisters (.initial (m.recycle.start text host)) a

/-- **A part of an evaluation returns.** With a value the run comes to the task that takes it over;
then so many parentheses fewer are open than before, and as many levels are entered. With an error
the run comes to where the levels around are left, and as many are entered as before. -/
def Stage.Returns (env : Env ω (Registers σ)) (a : Stage σ) (resume : α → Task)
    (closes : α → Nat) : EStateM.Result EvalError (Running (Registers σ)) α → Prop
  | .ok x t => Stage.Steps env a ⟨resume x, t⟩ ∧ t.depth + closes x = a.state.depth ∧
      t.host.nesting = a.state.host.nesting
  | .error e t => (∃ opened, Stage.Steps env a ⟨.stopped e opened a.task.levels, t⟩) ∧
      t.host.nesting = a.state.host.nesting

/-- A value is the result at the end of the whole text. -/
lemma Stage.ended_of_result {a : Stage σ} {x : Float} (h : a.result? = some (.ok x)) :
    ∃ ending, a.task = .ended x ending .whole := by
  obtain ⟨task, s⟩ := a
  cases task with
  | ended y ending outer =>
    cases outer with
    | whole =>
      cases h
      exact ⟨ending, rfl⟩
    | group outer => cases h
    | argument f seen outer => cases h
  | stopped e opened levels => cases levels <;> cases h
  | _ => cases h

/-- A chain that is read from the start of a text ends in that text. -/
lemma length_of_chain (m : Machine) (env : Env ω σ) (text : String) (host : σ)
    {p : Float × Ending} {t : Running (Registers σ)}
    (hrun : Scanner.chain (operand env.onRegisters env.maxDepth) .whole
      (m.recycle.start text host) = .ok p t) : t.cursor.length = text.toList.length := by
  have hlock : (Coupling.counting σ text.toList 0).Lockstep _
      (Scanner.chain (operand env.onRegisters env.maxDepth) .whole)
      (Scanner.chain (Scanner.operand env env.maxDepth) .whole) :=
    .chain (Coupling.counting_respects env) (.machine_operand (Nat.zero_add _)) .whole
  have hout := hlock (m.recycle.start text host) (.facing 0 text.toList 0 host)
    ⟨rfl, rfl, List.suffix_rfl, rfl, rfl⟩
  have hreaches := ((Scanner.forward_operand env env.maxDepth).chain .whole).reaches
    (.facing 0 text.toList 0 host)
  rw [hrun] at hout
  generalize Scanner.chain (Scanner.operand env env.maxDepth) .whole _ = r at hout hreaches
  cases hout with
  | ok _ ht =>
    rw [ht.cursor]
    exact hreaches.length.trans (Nat.zero_add _)

namespace Passes

variable {m : Machine} {env : Env ω σ} {text : String} {host : σ} {a b : Stage σ}

/-- What is reached from a stage that a machine passes is passed as well. -/
lemma trans (ha : m.Passes env text host a) (h : Stage.Steps env.onRegisters a b) :
    m.Passes env text host b :=
  Relation.ReflTransGen.trans ha h

/-- **The stages that a machine passes are balanced**, since it starts with nothing counted. -/
theorem balanced (ha : m.Passes env text host a) : a.Balanced env.maxDepth :=
  (Stage.balanced_initial env.maxDepth rfl rfl).steps env ha

/-- **A part of the run that reads something returns**, if the task that takes over its value has as
many groups and calls open as are not closed, and as many levels entered as before. -/
lemma returns (ha : m.Passes env text host a) {resume : α → Task} {closes : α → Nat}
    {r : EStateM.Result EvalError (Running (Registers σ)) α}
    (harrives : Stage.Arrives env.onRegisters a resume a.task.levels r)
    (hopened : ∀ x (t : Running (Registers σ)), Stage.Balanced env.maxDepth ⟨resume x, t⟩ →
      t.depth + closes x = a.task.opened)
    (hlevels : ∀ x, (resume x).levels = a.task.levels) :
    a.Returns env.onRegisters resume closes r := by
  have hbefore := ha.balanced
  cases r with
  | ok x t =>
    have hbehind := (ha.trans harrives).balanced
    refine ⟨harrives, (hopened x t hbehind).trans hbefore.depth.symm, ?_⟩
    exact hbehind.nesting.trans ((hlevels x).trans hbefore.nesting.symm)
  | error e t =>
    obtain ⟨opened, hsteps⟩ := harrives
    exact ⟨⟨opened, hsteps⟩, (ha.trans hsteps).balanced.nesting.trans hbefore.nesting.symm⟩

/-- Operands are read in the run where a machine passes, on the levels that are left. -/
lemma follows (ha : m.Passes env text host a) :
    Stage.Follows env a.state.host.nesting
      (operand env.onRegisters (env.maxDepth - a.state.host.nesting)) := by
  have hlimit : a.state.host.nesting ≤ env.maxDepth :=
    ha.balanced.nesting.trans_le ha.balanced.limit
  exact Stage.operand_follows env (Nat.add_sub_cancel' hlimit)

/-- **An operand leaves both counts as it found them**, and that of the levels also with an
error. -/
theorem returns_operand {outer : Pending .operand} {s : Running (Registers σ)}
    (ha : m.Passes env text host ⟨.operand outer, s⟩) :
    Stage.Returns env.onRegisters ⟨.operand outer, s⟩ (.given · outer) (fun _ => 0)
      (operand env.onRegisters (env.maxDepth - s.host.nesting) s) :=
  ha.returns (ha.follows.arrives outer rfl) (fun _ _ h => h.depth) fun _ => rfl

/-- **A chain closes the parenthesis that ends it**, and leaves the counts as it found them
otherwise. -/
theorem returns_chain {outer : Pending .chain} {s : Running (Registers σ)}
    (ha : m.Passes env text host ⟨.operand (.first outer), s⟩) :
    Stage.Returns env.onRegisters ⟨.operand (.first outer), s⟩
      (fun p => .ended p.1 p.2 outer) (fun p => p.2.closed)
      (Scanner.chain (operand env.onRegisters (env.maxDepth - s.host.nesting)) outer.scope s) := by
  refine ha.returns (Stage.arrives_chain ha.follows outer rfl) (fun p t h => ?_) fun _ => rfl
  obtain ⟨x, ending⟩ := p
  cases ending with
  | text => exact h.depth
  | comma => exact h.depth
  | close => exact h.closed rfl

/-- **The run leads to the result from each stage** that a machine passes. -/
lemma to_result (ha : m.Passes env text host a) {last : Stage σ}
    (hlast : m.Passes env text host last) {result : Except EvalError Float}
    (hresult : last.result? = some result) : Stage.Steps env.onRegisters a last :=
  Stage.Steps.to_result hlast hresult ha

/-- A stage with a result has the result of the evaluation, and it is the only one. -/
lemma result_eq (ha : m.Passes env text host a) {result : Except EvalError Float}
    (hresult : a.result? = some result) :
    (m.eval env text host).1 = result ∧
      ∀ b, m.Passes env text host b → b.result?.isSome → b = a := by
  have hunique : ∀ {b}, m.Passes env text host b → b.result?.isSome → b = a := by
    intro b hb hsome
    obtain ⟨_, hbehind⟩ := Option.isSome_iff_exists.mp hsome
    rcases Relation.ReflTransGen.cases_head (ha.to_result hb hbehind) with heq | ⟨c, hnext, -⟩
    · exact heq.symm
    · rw [Stage.next_of_result hresult] at hnext
      cases hnext
  obtain ⟨last, hlast, heval⟩ := Stage.arrives_eval m env text host
  have hsame : last = a := hunique hlast (by rw [heval]; rfl)
  rw [hsame, hresult] at heval
  exact ⟨(Option.some.inj heval).symm, fun b hb hsome => hunique hb hsome⟩

/-- **A chain of the whole text ends with the text**, of which nothing is left then.

**Proof sketch.** A closing parenthesis or a comma does not end it, since the stage is balanced. Its
stage is the last one, and there the cursor stands where an evaluation without registers stops. -/
lemma ended_whole {x : Float} {ending : Ending} {s : Running (Registers σ)}
    (ha : m.Passes env text host ⟨.ended x ending .whole, s⟩) :
    ending = .text ∧ s.cursor = ⟨text.toList.length, []⟩ := by
  have hends := ha.balanced.ends
  obtain rfl : ending = .text := by
    cases ending with
    | text => rfl
    | close => exact absurd rfl (hends.2 rfl)
    | comma => cases hends.1
  refine ⟨rfl, ?_⟩
  have hrest : s.cursor.rest = [] := hends.1.2
  have hlength : s.cursor.length = text.toList.length := by
    have hunique := (ha.result_eq rfl).2
    have harrives := Stage.arrives_formula m env text host
    cases hrun : Scanner.chain (operand env.onRegisters env.maxDepth) .whole
        (m.recycle.start text host) with
    | ok p t =>
      rw [hrun] at harrives
      rw [← Stage.mk.inj (hunique _ harrives rfl) |>.2]
      exact length_of_chain m env text host hrun
    | error e t =>
      rw [hrun] at harrives
      obtain ⟨opened, hsteps⟩ := harrives
      cases hunique _ hsteps rfl
  obtain ⟨⟨⟨p, cs⟩, d⟩, h⟩ := s
  obtain rfl : cs = [] := hrest
  exact congrArg (Cursor.mk · []) hlength

/-- **A closing parenthesis that the outermost chain meets** is an error, whatever stands in front
of it. -/
lemma unmatched {x : Float} {s : Running (Registers σ)}
    (ha : m.Passes env text host ⟨.link x .whole, s⟩)
    (hclose : s.settle.cursor.current = some ')') :
    (m.eval env text host).1 = .error (.malformed s.settle.cursor.position .unmatchedClose) := by
  have hdepth : s.settle.depth = 0 := ha.balanced.depth
  have hlink : Scanner.link .whole s =
      .error (.malformed s.settle.cursor.position .unmatchedClose) s.settle := by
    rw [Scanner.link_apply, hclose]
    simp only [Scanner.linkAt, if_true]
    rw [Scanner.bind_apply, Scanner.closeParen_apply, if_pos hdepth]
  have hstops : Stage.Arrives env.onRegisters ⟨.link x .whole, s⟩ (Task.ofLink x .whole) 0
      (Scanner.link .whole s) := .of_run rfl
  rw [hlink] at hstops
  obtain ⟨opened, hsteps⟩ := hstops
  exact ((ha.trans hsteps).result_eq rfl).1

end Passes

/-- **The counts are right, and the whole text is read.** Of the stages that a machine passes on a
text:

* They all lead to the one with the result of the evaluation.
* At each of them the parentheses counted are those of the groups and calls opened and not yet
  closed, and one that has just been closed had been counted. The levels counted are those entered,
  which are never more than the limit.
* An operand that gives a value leaves both counts as it found them. A chain that ends with a
  parenthesis leaves one fewer open, and any other one as many. The levels are as before also behind
  an error.
* So the outermost chain ends with the text only, each closing parenthesis that it meets is an
  error, and a value is given only when the whole text has been read.

**Proof sketch.** The stages of the run are balanced: the first one is, and each step preserves it.
Operands and chains are read in the run, so what they leave of the counts is told by the two stages
around them. No parenthesis is open around the outermost chain. -/
theorem bookkeeping (m : Machine) (env : Env ω σ) (text : String) (host : σ) :
    (∃ last, last.result? = some (m.eval env text host).1 ∧
      m.Passes env text host last ∧
      ∀ a, m.Passes env text host a → Stage.Steps env.onRegisters a last) ∧
    (∀ a, m.Passes env text host a →
      a.state.depth = a.task.opened ∧
      (∀ x outer, a.task = .ended x .close outer → a.state.depth + 1 = outer.opened) ∧
      a.state.host.nesting = a.task.levels ∧ a.state.host.nesting ≤ env.maxDepth) ∧
    (∀ outer s, m.Passes env text host ⟨.operand outer, s⟩ →
      Stage.Returns env.onRegisters ⟨.operand outer, s⟩ (.given · outer) (fun _ => 0)
        (operand env.onRegisters (env.maxDepth - s.host.nesting) s)) ∧
    (∀ outer s, m.Passes env text host ⟨.operand (.first outer), s⟩ →
      Stage.Returns env.onRegisters ⟨.operand (.first outer), s⟩ (fun p => .ended p.1 p.2 outer)
        (fun p => p.2.closed) (Scanner.chain
          (operand env.onRegisters (env.maxDepth - s.host.nesting)) outer.scope s)) ∧
    (∀ x ending s, m.Passes env text host ⟨.ended x ending .whole, s⟩ → ending = .text) ∧
    (∀ x s, m.Passes env text host ⟨.link x .whole, s⟩ → s.settle.cursor.current = some ')' →
      (m.eval env text host).1 =
        .error (.malformed s.settle.cursor.position .unmatchedClose)) ∧
    ∀ x, (m.eval env text host).1 = .ok x →
      ∃ s, m.Passes env text host ⟨.ended x .text .whole, s⟩ ∧
        s.cursor = ⟨text.toList.length, []⟩ := by
  obtain ⟨last, hlast, hresult⟩ := Stage.arrives_eval m env text host
  have hpasses : m.Passes env text host last := hlast
  refine ⟨⟨last, hresult, hpasses, fun a ha => ha.to_result hpasses hresult⟩, fun a ha => ?_,
    fun _ _ ha => ha.returns_operand, fun _ _ ha => ha.returns_chain,
    fun _ _ _ ha => ha.ended_whole.1, fun _ _ ha hclose => ha.unmatched hclose, fun x heval => ?_⟩
  · have hbalanced := ha.balanced
    exact ⟨hbalanced.depth, fun _ _ htask => hbalanced.closed htask, hbalanced.nesting,
      hbalanced.nesting.trans_le hbalanced.limit⟩
  · rw [heval] at hresult
    obtain ⟨task, s⟩ := last
    obtain ⟨ending, rfl⟩ := Stage.ended_of_result hresult
    obtain ⟨rfl, hcursor⟩ := hpasses.ended_whole
    exact ⟨s, hpasses, hcursor⟩

-- the parenthesis that belongs to nothing does not end the text
example : (blank.eval (.ofDocument .null 4) "($)) + $" 5).1 =
    .error (.malformed 3 .unmatchedClose) := rfl

end Formula.Machine
