import Formula.Proofs.Stages.Counts

set_option relaxedAutoImplicit false
set_option autoImplicit false

/-!
# Balanced stages

At each stage of an evaluation the register of open parentheses counts the groups and calls that are
opened and not yet closed, and the register of levels counts those that have been entered and not
left, of which there are never more than the limit allows. One step preserves this, so it holds of
every stage of a run.

## Main definitions

* `Formula.Machine.Stage.Balanced` — the registers count what is under way.

## Main results

* `Formula.Machine.Stage.Balanced.step` — a step leads from a balanced stage to a balanced stage.
* `Formula.Machine.Stage.Balanced.steps` — so does a run.
-/

namespace Formula.Machine

variable {ω σ α : Type}

/-- A chain that does not stand in the whole text stands in one open parenthesis more than what is
around it. -/
lemma Pending.opened_eq {outer : Pending .chain} (h : outer.scope ≠ .whole) :
    outer.opened = outer.around + 1 := by
  cases outer with
  | whole => exact absurd rfl h
  | group outer => rfl
  | argument f seen outer => rfl

/-- No parenthesis is open around the chain of the whole text. -/
lemma Pending.opened_whole {outer : Pending .chain} (h : outer.scope = .whole) :
    outer.opened = 0 := by
  cases outer with
  | whole => rfl
  | group outer => cases h
  | argument f seen outer => cases h

/-- **A chain ends where it may**: with the text, of which nothing is left, only outermost; with a
comma only in a call; and with a closing parenthesis anywhere but outermost. -/
def Task.Ends (rest : List Char) : Task → Prop
  | ended _ ending outer =>
    ending.Allowed outer.scope rest ∧ (ending = .close → outer.scope ≠ .whole)
  | _ => True

/-- A group ends with its parenthesis. -/
lemma Task.close_of_group {x : Float} {ending : Ending} {outer : Pending .operand}
    {rest : List Char} (h : (ended x ending (.group outer)).Ends rest) : ending = .close := by
  cases ending with
  | close => rfl
  | text => cases h.1.1
  | comma => cases h.1

/-- The text does not end in an argument. -/
lemma Task.ne_text_of_argument {x : Float} {ending : Ending} {f : Builtin} {seen : Option Float}
    {outer : Pending .operand} {rest : List Char}
    (h : (ended x ending (.argument f seen outer)).Ends rest) : ending ≠ .text := by
  rintro rfl
  cases h.1.1

namespace Stage

/-- **A balanced stage**: the registers count what is under way. -/
structure Balanced (limit : Nat) (a : Stage σ) : Prop where
  /-- The parentheses counted are those of the groups and calls opened and not yet closed. -/
  depth : a.state.depth = a.task.opened
  /-- The levels counted are those that have been entered. -/
  nesting : a.state.host.nesting = a.task.levels
  /-- There are no more of them than the limit allows. -/
  limit : a.task.levels ≤ limit
  /-- A chain ends where it may. -/
  ends : a.task.Ends a.state.cursor.rest

namespace Balanced

variable {limit : Nat} {a b : Stage σ} (h : a.Balanced limit)

include h

/-- **A closing parenthesis that ends a chain has been counted** before. -/
lemma closed {x : Float} {outer : Pending .chain} (htask : a.task = .ended x .close outer) :
    a.state.depth + 1 = outer.opened := by
  have hends := h.ends
  have hdepth := h.depth
  rw [htask] at hends hdepth
  rw [hdepth, Pending.opened_eq (hends.2 rfl)]
  rfl

/-- Handing something over does not count. -/
lemma handOver {task : Task} (hopened : task.opened = a.task.opened)
    (hlevels : task.levels = a.task.levels) (hends : task.Ends a.state.cursor.rest) :
    Balanced limit ⟨task, a.state⟩ :=
  ⟨h.depth.trans hopened.symm, h.nesting.trans hlevels.symm, hlevels.trans_le h.limit, hends⟩

/-- Leaving a level counts one fewer. -/
lemma leave {task : Task} (hopened : task.opened = a.task.opened)
    (hlevels : task.levels + 1 = a.task.levels) (hends : task.Ends a.state.cursor.rest) :
    Balanced limit ⟨task, back a.state⟩ where
  depth := h.depth.trans hopened.symm
  nesting := by
    show a.state.host.nesting - 1 = task.levels
    rw [h.nesting, ← hlevels, Nat.add_sub_cancel]
  limit := by
    show task.levels ≤ limit
    have hle := h.limit
    omega
  ends := hends

variable {env : Env ω (Registers σ)}

/-- **A task that counts parentheses** leads to a balanced stage, if what is under way then has as
many of them. -/
lemma of_counts {m : Scanner (Registers σ) α} {f : α → Task} {opens closes : α → Nat}
    (hrun : a.task.run env = some (f <$> m)) (hm : Counts m opens closes)
    (hf : ∀ x t, m a.state = .ok x t → (f x).opened + closes x = a.task.opened + opens x ∧
      (f x).levels = a.task.levels ∧ (f x).Ends t.cursor.rest)
    (hnext : a.next env = some b) : b.Balanced limit := by
  rw [next, hrun, Option.map_some, map_eq_pure_bind, Scanner.bind_apply] at hnext
  obtain rfl := Option.some.inj hnext
  cases hresult : m a.state with
  | ok x t =>
    obtain ⟨hopened, hlevels, hends⟩ := hf x t hresult
    obtain ⟨hdepth, hnesting⟩ := hm.ok hresult
    refine ⟨?_, hnesting.trans (h.nesting.trans hlevels.symm), hlevels.trans_le h.limit, hends⟩
    show t.depth = (f x).opened
    have := h.depth
    omega
  | error e t =>
    obtain ⟨hdepth, hnesting⟩ := hm.error hresult
    exact ⟨hdepth.trans h.depth, hnesting.trans h.nesting, h.limit, trivial⟩

end Balanced

/-- The stage in which an evaluation begins is balanced, when nothing has been counted. -/
lemma balanced_initial (limit : Nat) {s : Running (Registers σ)} (hdepth : s.depth = 0)
    (hnesting : s.host.nesting = 0) : (initial s).Balanced limit :=
  ⟨hdepth, hnesting, Nat.zero_le limit, trivial⟩

namespace Balanced

variable {env : Env ω σ} {s : Running (Registers σ)} {b : Stage σ}

/-- **A level is entered below the limit only**, so there are not too many of them. -/
lemma enter {inside : Inside} {outer : Pending .operand}
    (h : Balanced env.maxDepth ⟨.enter inside outer, s⟩)
    (hnext : next env.onRegisters ⟨.enter inside outer, s⟩ = some b) : b.Balanced env.maxDepth := by
  rw [next_enter] at hnext
  obtain rfl := Option.some.inj hnext
  split_ifs with hlimit
  · exact h.handOver rfl rfl trivial
  · have hnesting : s.host.nesting = outer.levels := h.nesting
    have hbelow : outer.levels < env.maxDepth := by
      rw [← hnesting]
      exact Nat.lt_of_not_le hlimit
    have hentered : (Task.operand (inside.waiting outer)).levels = outer.levels + 1 := by
      cases inside <;> rfl
    refine ⟨?_, ?_, hentered.trans_le hbelow, trivial⟩
    · exact Eq.trans h.depth (by cases inside <;> rfl)
    · exact Eq.trans (congrArg (· + 1) hnesting) hentered.symm

/-- **A link ends a chain with a parenthesis only inside one**, since one must have been counted. -/
lemma link {value : Float} {outer : Pending .chain}
    (h : Balanced env.maxDepth ⟨.link value outer, s⟩)
    (hnext : next env.onRegisters ⟨.link value outer, s⟩ = some b) : b.Balanced env.maxDepth := by
  refine h.of_counts rfl (.link outer.scope) (fun link t hlink => ?_) hnext
  cases link with
  | operator op => exact ⟨rfl, rfl, trivial⟩
  | ended ending =>
    obtain ⟨hallowed, hopen⟩ := Scanner.allowed_of_link hlink
    have hdepth : s.depth = outer.opened := h.depth
    have hinside : ending = .close → outer.scope ≠ .whole := by
      intro hclose hwhole
      have hpos := hopen hclose
      rw [hdepth, Pending.opened_whole hwhole] at hpos
      exact absurd hpos (Nat.lt_irrefl 0)
    refine ⟨?_, rfl, hallowed, hinside⟩
    cases ending with
    | text => rfl
    | comma => rfl
    | close => exact (Pending.opened_eq (hinside rfl)).symm

/-- **What an argument makes of a call counts nothing**: the arguments are complete only behind a
parenthesis, and another one follows only behind a comma. -/
lemma argument {x : Float} {ending : Ending} {f : Builtin} {seen : Option Float}
    {outer : Pending .operand}
    (h : Balanced env.maxDepth ⟨.ended x ending (.argument f seen outer), s⟩)
    (hnext : next env.onRegisters ⟨.ended x ending (.argument f seen outer), s⟩ = some b) :
    b.Balanced env.maxDepth := by
  rw [next_argument] at hnext
  obtain rfl := Option.some.inj hnext
  cases htake : f.take seen x (ending == .close) with
  | complete args =>
    obtain rfl : ending = .close := eq_of_beq (Builtin.last_of_complete htake)
    exact h.handOver rfl rfl trivial
  | more =>
    have hlast := Builtin.last_of_more htake
    cases ending with
    | close => cases hlast
    | text => exact absurd rfl (Task.ne_text_of_argument h.ends)
    | comma => exact h.handOver rfl rfl trivial
  | wrong => exact h.handOver rfl rfl trivial

end Balanced

/-- **A step from a balanced stage leads to a balanced stage.**

**Proof sketch.** One case for each task. Where something is read, its parentheses are counted, and
what is under way is the more or the fewer by them. A level is entered only below the limit, and
left where something is handed over from it. A link ends a chain with a closing parenthesis only if
one has been counted, so not outermost. -/
theorem Balanced.step (env : Env ω σ) {a b : Stage σ} (h : a.Balanced env.maxDepth)
    (hnext : a.next env.onRegisters = some b) : b.Balanced env.maxDepth := by
  obtain ⟨task, s⟩ := a
  cases task with
  | operand outer =>
    refine h.of_counts rfl (.opening env) (fun start t _ => ?_) hnext
    cases start <;> exact ⟨rfl, rfl, trivial⟩
  | lookUp name outer =>
    rw [next_lookUp] at hnext
    obtain rfl := Option.some.inj hnext
    cases Builtin.named? name <;> exact h.handOver rfl rfl trivial
  | enter inside outer => exact h.enter hnext
  | given x outer =>
    cases outer <;> obtain rfl := Option.some.inj hnext
    case first => exact h.handOver rfl rfl trivial
    case right => exact h.handOver rfl rfl trivial
    case sign => exact h.leave rfl rfl trivial
  | link value outer => exact h.link hnext
  | ended x ending outer =>
    cases outer with
    | whole => cases hnext
    | group outer =>
      obtain rfl := Option.some.inj hnext
      obtain rfl := Task.close_of_group h.ends
      exact h.leave rfl rfl trivial
    | argument f seen outer => exact h.argument hnext
  | complete f args outer =>
    obtain rfl := Option.some.inj hnext
    exact h.leave rfl rfl trivial
  | invoke f args outer =>
    exact h.of_counts rfl (.invoke env f args) (fun _ _ _ => ⟨rfl, rfl, trivial⟩) hnext
  | stopped e opened levels =>
    cases levels with
    | zero => cases hnext
    | succ levels =>
      obtain rfl := Option.some.inj hnext
      exact h.leave rfl rfl trivial

/-- **All stages of a run are balanced** if the first one is. -/
theorem Balanced.steps (env : Env ω σ) {a b : Stage σ} (h : a.Balanced env.maxDepth)
    (hsteps : Steps env.onRegisters a b) : b.Balanced env.maxDepth := by
  induction hsteps with
  | refl => exact h
  | tail _ hnext ih => exact ih.step env hnext

end Stage

end Formula.Machine
