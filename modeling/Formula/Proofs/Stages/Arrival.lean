import Formula.Proofs.Stages.Counts

set_option relaxedAutoImplicit false
set_option autoImplicit false

/-!
# The run of an evaluation

The stages of an evaluation are those of the recursion: wherever an operand, a chain, the arguments
of a call or the whole text are read, the run goes on from there to what the reading gives. If it
stops with an error, the run comes to a stage where just the levels are left that have been entered
around it. There is only one run, so it leads from each of its stages to the result.

## Main definitions

* `Formula.Machine.Stage.Arrives` — a part of an evaluation as a part of the run.
* `Formula.Machine.Stage.Follows` — operands that are read in the run.

## Main results

* `Formula.Machine.Stage.operand_follows` — operands are read in the run, on all levels.
* `Formula.Machine.Stage.arrives_chain` — so are chains.
* `Formula.Machine.Stage.arrives_eval` — the run comes to the result of the evaluation.
* `Formula.Machine.Stage.Steps.to_result` — from each of its stages.
-/

namespace Formula

variable {ω σ α β : Type}

/-- **What a scanner in lockstep keeps**: the level that is counted, also when it stops with an
error; and what it leaves of the text with a value is an end of it. -/
lemma Coupling.Lockstep.kept {R : List Char → α → β → Prop} {level : Nat}
    {m₁ : Scanner (Registers σ) α} {m₂ : Scanner σ β}
    (h : ∀ text, (counting σ text level).Lockstep (R text) m₁ m₂)
    {s : Running (Registers σ)} (hs : s.host.nesting = level) :
    (∀ x t, m₁ s = .ok x t → t.host.nesting = level ∧ t.cursor.rest <:+ s.cursor.rest) ∧
      ∀ e t, m₁ s = .error e t → t.host.nesting = level := by
  have hout := h s.cursor.rest s ⟨s.toEvaluator, s.host.host⟩ ⟨rfl, rfl, List.suffix_rfl, rfl, hs⟩
  generalize m₂ _ = r at hout
  refine ⟨fun x t hrun => ?_, fun e t hrun => ?_⟩
  · rw [hrun] at hout
    cases hout with
    | ok _ ht => exact ⟨ht.hosts.nesting, ht.suffix⟩
  · rw [hrun] at hout
    cases hout with
    | error _ ht => exact ht.hosts.nesting
    | escape he => exact he.elim

namespace Machine.Stage

/-! ## Parts of an evaluation -/

section

variable (env : Env ω (Registers σ))

/-- **A part of an evaluation as a part of the run**: from a stage the run comes to the task that
takes over its value, or, if it stops with an error, to where so many levels are to be left. -/
def Arrives (a : Stage σ) (resume : α → Task) (levels : Nat) :
    EStateM.Result EvalError (Running (Registers σ)) α → Prop
  | .ok x t => Steps env a ⟨resume x, t⟩
  | .error e t => ∃ opened, Steps env a ⟨.stopped e opened levels, t⟩

end

namespace Arrives

variable {env : Env ω (Registers σ)} {a b : Stage σ} {resume : α → Task} {levels : Nat}

/-- The run may start a step earlier. -/
lemma head {r : EStateM.Result EvalError (Running (Registers σ)) α} (hnext : a.next env = some b)
    (h : Arrives env b resume levels r) : Arrives env a resume levels r := by
  cases r with
  | ok x t => exact Relation.ReflTransGen.head hnext h
  | error e t =>
    obtain ⟨opened, hsteps⟩ := h
    exact ⟨opened, .head hnext hsteps⟩

/-- **What a task reads is read in the run.** -/
lemma of_run {m : Scanner (Registers σ) α} (hrun : a.task.run env = some (resume <$> m)) :
    Arrives env a resume a.task.levels (m a.state) := by
  have hnext : a.next env = some (match m a.state with
      | .ok x t => ⟨resume x, t⟩
      | .error e t => ⟨.stopped e a.task.opened a.task.levels, t⟩) := by
    rw [next, hrun, Option.map_some, map_eq_pure_bind, Scanner.bind_apply]
    cases m a.state <;> rfl
  cases hresult : m a.state with
  | ok x t =>
    rw [hresult] at hnext
    exact .single hnext
  | error e t =>
    rw [hresult] at hnext
    exact ⟨a.task.opened, .single hnext⟩

/-- **A sequence is read in the run** if both of its parts are. -/
lemma bind {m : Scanner (Registers σ) α} {f : α → Scanner (Registers σ) β} {resume' : β → Task}
    {s : Running (Registers σ)} (hm : Arrives env a resume levels (m s))
    (hf : ∀ x t, m s = .ok x t → Arrives env ⟨resume x, t⟩ resume' levels (f x t)) :
    Arrives env a resume' levels ((m >>= f) s) := by
  rw [Scanner.bind_apply]
  cases hrun : m s with
  | error e t =>
    rw [hrun] at hm
    exact hm
  | ok x t =>
    rw [hrun] at hm
    have hrest := hf x t hrun
    dsimp only
    cases hresult : f x t with
    | ok y u =>
      rw [hresult] at hrest
      exact Relation.ReflTransGen.trans hm hrest
    | error e u =>
      rw [hresult] at hrest
      obtain ⟨opened, hsteps⟩ := hrest
      exact ⟨opened, .trans hm hsteps⟩

/-- **A level that is counted is left in the run**, with a value and with an error. -/
lemma counted {m : Scanner (Registers σ) α} {resume' : α → Task} {s : Running (Registers σ)}
    (h : Arrives env a resume (levels + 1) (m (deeper s)))
    (hleave : ∀ x t, next env ⟨resume x, t⟩ = some ⟨resume' x, back t⟩) :
    Arrives env a resume' levels (Machine.counted m s) := by
  unfold Machine.counted
  change Arrives env a resume' levels (match m (deeper s) with
    | .ok x t => .ok x (back t)
    | .error e t => .error e (back t))
  cases hrun : m (deeper s) with
  | ok x t =>
    rw [hrun] at h
    exact Relation.ReflTransGen.tail h (hleave x t)
  | error e t =>
    rw [hrun] at h
    obtain ⟨opened, hsteps⟩ := h
    exact ⟨opened, .tail hsteps rfl⟩

end Arrives

/-! ## Chains and arguments -/

/-- **Operands that are read in the run** at a level, whatever waits for them, and that keep the
count of levels. -/
structure Follows (env : Env ω σ) (level : Nat) (one : Scanner (Registers σ) Float) : Prop where
  /-- They are read in the run. -/
  arrives : ∀ (outer : Pending .operand) {s : Running (Registers σ)}, s.host.nesting = level →
    Arrives env.onRegisters ⟨.operand outer, s⟩ (.given · outer) outer.levels (one s)
  /-- They are read in lockstep with operands for which no levels are counted. -/
  lockstep : ∃ other : Scanner σ Float, ∀ text,
    (Coupling.counting σ text level).Lockstep Eq one other

section

variable {env : Env ω σ} {level : Nat} {one : Scanner (Registers σ) Float}
  (hone : Follows env level one)

include hone

/-- An operand keeps the count of levels, and what it leaves of the text is an end of it. -/
lemma Follows.kept {s t : Running (Registers σ)} {x : Float} (hs : s.host.nesting = level)
    (hrun : one s = .ok x t) : t.host.nesting = level ∧ t.cursor.rest <:+ s.cursor.rest := by
  obtain ⟨other, hlock⟩ := hone.lockstep
  exact (Coupling.Lockstep.kept hlock hs).1 x t hrun

/-- A chain keeps the count of levels. -/
lemma Follows.nesting_of_chain {scope : Scope} {s t : Running (Registers σ)} {p : Float × Ending}
    (hs : s.host.nesting = level) (hrun : Scanner.chain one scope s = .ok p t) :
    t.host.nesting = level := by
  obtain ⟨other, hlock⟩ := hone.lockstep
  have hchain := fun text => Coupling.Lockstep.chain (Coupling.counting_respects env)
    (hlock text) scope
  exact ((Coupling.Lockstep.kept hchain hs).1 p t hrun).1

/-- **The rest of a chain is read in the run**, in as many rounds as there are characters ahead.

**Proof sketch.** Induction on the rounds. A link is one step. Behind an operator there are fewer
characters ahead, and still fewer behind its right operand. -/
lemma arrives_chainRest (outer : Pending .chain) (n : Nat) (r : Float) {s : Running (Registers σ)}
    (hs : s.host.nesting = level) (hn : s.cursor.rest.length ≤ n) :
    Arrives env.onRegisters ⟨.link r outer, s⟩ (fun p => .ended p.1 p.2 outer) outer.levels
      (Scanner.chainRest one outer.scope n r s) := by
  induction n generalizing r s with
  | zero =>
    obtain ⟨⟨⟨p, cs⟩, d⟩, h⟩ := s
    obtain rfl : cs = [] := List.length_eq_zero_iff.mp (Nat.le_zero.mp hn)
    have hend : Scanner.chainRest one outer.scope 0 r (.facing p [] d h) =
        (Scanner.link outer.scope >>= Scanner.behindLink one outer.scope 0 r)
          (.facing p [] d h) :=
      (Scanner.chainRest_nil one outer.scope 0 r p d h).trans
        ((Scanner.chainRest_nil one outer.scope 1 r p d h).symm.trans
          (congrFun (Scanner.chainRest_eq_link one outer.scope 0 r) _))
    rw [hend]
    refine (Arrives.of_run rfl).bind fun link t hlink => ?_
    cases link with
    | ended ending => exact Relation.ReflTransGen.refl
    | operator op => exact absurd (Scanner.rest_of_link hlink).1 (Nat.not_lt_zero _)
  | succ n ih =>
    rw [Scanner.chainRest_eq_link]
    refine (Arrives.of_run rfl).bind fun link t hlink => ?_
    cases link with
    | ended ending => exact Relation.ReflTransGen.refl
    | operator op =>
      have hfewer : t.cursor.rest.length < s.cursor.rest.length := (Scanner.rest_of_link hlink).1
      have hhost : t.host = s.host := (Scanner.rest_of_link hlink).2
      have ht : t.host.nesting = level := by rw [hhost, hs]
      refine (hone.arrives (.right r op outer) ht).bind fun x u hx => ?_
      obtain ⟨hu, hsuffix⟩ := hone.kept ht hx
      have hle : u.cursor.rest.length ≤ t.cursor.rest.length := hsuffix.length_le
      have hrounds : u.cursor.rest.length ≤ n := by omega
      exact .head rfl (ih (op.apply r x) hu hrounds)

/-- **Chains are read in the run.** -/
lemma arrives_chain (outer : Pending .chain) {s : Running (Registers σ)}
    (hs : s.host.nesting = level) :
    Arrives env.onRegisters ⟨.operand (.first outer), s⟩ (fun p => .ended p.1 p.2 outer)
      outer.levels (Scanner.chain one outer.scope s) :=
  (hone.arrives (.first outer) hs).bind fun x _ hx =>
    .head rfl (arrives_chainRest hone outer _ x (hone.kept hs hx).1 (Nat.le_refl _))

/-- **The arguments of a call are read in the run.** -/
lemma arrives_arguments (f : Builtin) (outer : Pending .operand) {s : Running (Registers σ)}
    (hs : s.host.nesting = level) :
    Arrives env.onRegisters ⟨.operand (.first (.argument f none outer)), s⟩
      (.complete f · outer) (outer.levels + 1) (Scanner.arguments f one s) := by
  rw [Scanner.arguments_eq, Scanner.argument_bind]
  refine (arrives_chain hone (.argument f none outer) hs).bind fun p t hp => ?_
  have hfirst := next_argument env.onRegisters p.1 p.2 f none outer t
  unfold Scanner.furtherArguments
  cases htake : f.take none p.1 (p.2 == .close) <;> rw [htake] at hfirst
  case complete args => exact Relation.ReflTransGen.single hfirst
  case wrong => exact ⟨_, .single hfirst⟩
  case more =>
    refine .head hfirst ?_
    have ht : t.host.nesting = level := hone.nesting_of_chain hs hp
    rw [Scanner.secondArgument, Scanner.argument_bind]
    refine (arrives_chain hone (.argument f (some p.1) outer) ht).bind fun q u _ => ?_
    have hsecond := next_argument env.onRegisters q.1 q.2 f (some p.1) outer u
    cases hlast : q.2 == .close <;> rw [hlast] at hsecond
    · exact ⟨_, .single hsecond⟩
    · exact Relation.ReflTransGen.single hsecond

end

/-! ## Levels -/

/-- **Levels that are counted and levels that are left**: either there is a level more, and on it
operands are read in the run, or the count has come to the limit and no level is left. -/
inductive Below (env : Env ω σ) (level : Nat) : Option (Scanner (Registers σ) Float) → Prop
  | more {one : Scanner (Registers σ) Float} : level < env.maxDepth →
      Follows env (level + 1) one → Below env level (some one)
  | last : level = env.maxDepth → Below env level none

section

variable {env : Env ω σ} {level : Nat} {inner : Option (Scanner (Registers σ) Float)}
  (hinner : Below env level inner)

include hinner

/-- **What is nested is read in the run**: its level is entered below the limit, and left by the
task that takes over its value. -/
lemma arrives_nested (inside : Inside) (outer : Pending .operand)
    {body : Scanner (Registers σ) Float → Scanner (Registers σ) α} {resume resume' : α → Task}
    {s : Running (Registers σ)} (hs : s.host.nesting = level)
    (hbody : ∀ one, Follows env (level + 1) one → ∀ t : Running (Registers σ),
      t.host.nesting = level + 1 → Arrives env.onRegisters ⟨.operand (inside.waiting outer), t⟩
        resume (outer.levels + 1) (body one t))
    (hleave : ∀ x t, next env.onRegisters ⟨resume x, t⟩ = some ⟨resume' x, back t⟩) :
    Arrives env.onRegisters ⟨.enter inside outer, s⟩ resume' outer.levels
      (nested env.onRegisters inner body s) := by
  have henter := next_enter env.onRegisters inside outer s
  unfold nested
  rw [Scanner.bind_of_ok (Scanner.onHost_apply _ _)]
  dsimp only
  cases hinner with
  | more hlevel hone =>
    have hbelow : ¬ env.onRegisters.maxDepth ≤ s.host.nesting := by
      rw [hs]
      exact Nat.not_le_of_lt hlevel
    rw [if_neg hbelow] at henter ⊢
    have hdeeper : (deeper s).host.nesting = level + 1 := congrArg (· + 1) hs
    exact .head henter (.counted (hbody _ hone _ hdeeper) hleave)
  | last hlevel =>
    have hreached : env.onRegisters.maxDepth ≤ s.host.nesting := by
      rw [hs, hlevel]
      exact Nat.le_refl _
    rw [if_pos hreached] at henter ⊢
    exact ⟨_, .single henter⟩

/-- **Operands are read in the run**, if those of the level below are.

**Proof sketch.** What an operand starts with is one step. A sign, a group and a call go one level
deeper from there, where an operand, a chain or arguments are read in the run. -/
lemma arrives_operandWith (outer : Pending .operand) {s : Running (Registers σ)}
    (hs : s.host.nesting = level) :
    Arrives env.onRegisters ⟨.operand outer, s⟩ (.given · outer) outer.levels
      (operandWith env.onRegisters inner s) := by
  rw [operandWith_eq_opening]
  refine (Arrives.of_run rfl).bind fun start t hstart => ?_
  have ht : t.host.nesting = level := ((Counts.opening env).ok hstart).2.trans hs
  cases start with
  | value x => exact Relation.ReflTransGen.refl
  | sign negative =>
    refine (arrives_nested hinner (.sign negative) outer ht
      (fun one hone u hu => hone.arrives (.sign negative outer) hu) fun _ _ => rfl).bind ?_
    exact fun x u _ => Relation.ReflTransGen.refl
  | group =>
    refine (arrives_nested hinner .group outer ht
      (fun one hone u hu => arrives_chain hone (.group outer) hu) fun _ _ => rfl).bind ?_
    exact fun p u _ => Relation.ReflTransGen.refl
  | call name =>
    have hlookUp := next_lookUp env.onRegisters name outer t
    simp only [behind, Task.ofOpening]
    cases hname : Builtin.named? name <;> rw [hname] at hlookUp
    case none => exact ⟨_, .single hlookUp⟩
    case some f =>
      refine .head hlookUp ((arrives_nested hinner (.call f) outer ht
        (fun one hone u hu => arrives_arguments hone f outer hu) fun _ _ => rfl).bind ?_)
      exact fun args u _ => .of_run rfl

end

/-- **Operands are read in the run** when the levels counted and the levels left come to the limit.

**Proof sketch.** Induction on the levels left. Going a level deeper counts one and leaves one
fewer, so their sum stays the limit. -/
theorem operand_follows (env : Env ω σ) {level levels : Nat}
    (hlevels : level + levels = env.maxDepth) :
    Follows env level (operand env.onRegisters levels) where
  arrives := by
    induction levels generalizing level with
    | zero => exact fun outer _ hs => arrives_operandWith (.last hlevels) outer hs
    | succ levels ih =>
      have hbelow : level < env.maxDepth := by omega
      have hone : Follows env (level + 1) (operand env.onRegisters levels) :=
        ⟨ih (by omega), _, fun _ => .machine_operand (by omega)⟩
      exact fun outer _ hs => arrives_operandWith (.more hbelow hone) outer hs
  lockstep := ⟨_, fun _ => .machine_operand hlevels⟩

/-! ## Whole texts -/

/-- **The run of a machine on a text comes to its end** as the reading of the text does. -/
lemma arrives_formula (m : Machine) (env : Env ω σ) (text : String) (host : σ) :
    Arrives env.onRegisters (initial (m.recycle.start text host))
      (fun p => .ended p.1 p.2 .whole) 0
      (Scanner.chain (operand env.onRegisters env.maxDepth) .whole (m.recycle.start text host)) :=
  arrives_chain (operand_follows env (Nat.zero_add _)) .whole rfl

/-- **The run of a machine on a text comes to the result** of the evaluation. -/
theorem arrives_eval (m : Machine) (env : Env ω σ) (text : String) (host : σ) :
    ∃ last, Steps env.onRegisters (initial (m.recycle.start text host)) last ∧
      last.result? = some (m.eval env text host).1 := by
  have harrives := arrives_formula m env text host
  rw [Machine.eval, formula, Scanner.bind_apply]
  change Arrives _ _ _ _ (Scanner.chain (operand env.onRegisters env.onRegisters.maxDepth) .whole
    (m.recycle.start text host)) at harrives
  cases hrun : Scanner.chain (operand env.onRegisters env.onRegisters.maxDepth) .whole
      (m.recycle.start text host) with
  | ok p t =>
    rw [hrun] at harrives
    exact ⟨_, harrives, rfl⟩
  | error e t =>
    rw [hrun] at harrives
    obtain ⟨opened, hsteps⟩ := harrives
    exact ⟨_, hsteps, rfl⟩

section

variable {env : Env ω (Registers σ)} {a b last : Stage σ} {result : Except EvalError Float}

/-- There is no stage behind a result. -/
lemma next_of_result (h : last.result? = some result) : last.next env = none := by
  obtain ⟨task, s⟩ := last
  cases task with
  | ended x ending outer =>
    cases outer with
    | whole => rfl
    | group outer => cases h
    | argument f seen outer => cases h
  | stopped e opened levels =>
    cases levels with
    | zero => rfl
    | succ levels => cases h
  | _ => cases h

/-- **The run leads to the result from each of its stages.**

**Proof sketch.** A stage has one next stage, so of two stages that are reached one is reached from
the other, and nothing is reached from the one with the result but itself. -/
theorem Steps.to_result (hlast : Steps env a last) (hresult : last.result? = some result)
    (hsteps : Steps env a b) : Steps env b last := by
  have hunique : Relator.RightUnique fun a b : Stage σ => a.next env = some b :=
    fun _ _ _ hb hc => Option.some.inj (hb.symm.trans hc)
  rcases Relation.ReflTransGen.total_of_right_unique hunique hlast hsteps with hbehind | hahead
  · rcases Relation.ReflTransGen.cases_head hbehind with rfl | ⟨c, hnext, -⟩
    · exact .refl
    · rw [next_of_result hresult] at hnext
      cases hnext
  · exact hahead

end

end Machine.Stage

end Formula
