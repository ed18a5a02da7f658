import Formula.Proofs.Stages.Gains

set_option relaxedAutoImplicit false
set_option autoImplicit false

/-!
# Stages move forward

Each stage of an evaluation stands at or behind the place of the stage before it, in the same text.
Operands that are read one after the other do not stand at the same place: one that is left out in
front of a closing parenthesis takes nothing but blanks, but then the parenthesis is read before the
next operand is. So an operand that is read later has less text ahead.

## Main definitions

* `Formula.Machine.Stage.Past` — stages past a place, or right in front of a closing parenthesis
  there that is read next.

## Main results

* `Formula.Machine.Stage.Steps.reaches` — a run moves forward.
* `Formula.Machine.Stage.length_lt_of_operand` — an operand that is read later has less text ahead.
-/

namespace Formula.Machine

variable {ω σ α : Type}

/-! ## Stages move forward -/

/-- **Taking up a task moves forward.** -/
lemma Task.forward {env : Env ω (Registers σ)} {task : Task} {m : Scanner (Registers σ) Task}
    (hrun : task.run env = some m) : Scanner.Forward m := by
  have hleave : ∀ task : Task,
      Scanner.Forward (leaveLevel >>= fun _ => pure task : Scanner (Registers σ) Task) :=
    fun _ => .bind (.write _) fun _ => .pure _
  cases task with
  | operand outer =>
    obtain rfl := Option.some.inj hrun
    exact .map (.opening env) _
  | lookUp name outer =>
    obtain rfl := Option.some.inj hrun
    split
    · exact .throw fun _ _ h => by cases h
    · exact .pure _
  | enter inside outer =>
    obtain rfl := Option.some.inj hrun
    refine .bind (.onHost _) fun levels => ?_
    split_ifs
    · exact .throw fun _ _ h => by cases h
    · exact .bind (.write _) fun _ => .pure _
  | given x outer =>
    cases outer <;> obtain rfl := Option.some.inj hrun
    case first => exact .pure _
    case right => exact .pure _
    case sign => exact hleave _
  | link value outer =>
    obtain rfl := Option.some.inj hrun
    exact .map (.link outer.scope) _
  | ended x ending outer =>
    cases outer with
    | whole => cases hrun
    | group outer =>
      obtain rfl := Option.some.inj hrun
      exact hleave _
    | argument f seen outer =>
      obtain rfl := Option.some.inj hrun
      split
      · exact .pure _
      · exact .pure _
      · exact .throw fun _ _ h => by cases h
  | complete f args outer =>
    obtain rfl := Option.some.inj hrun
    exact hleave _
  | invoke f args outer =>
    obtain rfl := Option.some.inj hrun
    exact .map (.invoke env f args) _
  | stopped e opened levels =>
    cases levels with
    | zero => cases hrun
    | succ levels =>
      obtain rfl := Option.some.inj hrun
      exact hleave _

namespace Stage

variable {env : Env ω (Registers σ)} {a b : Stage σ}

/-- **A step moves forward.** -/
lemma reaches_next (hnext : a.next env = some b) : a.state.cursor.Reaches b.state.cursor := by
  obtain ⟨m, hrun, rfl⟩ := Option.map_eq_some_iff.mp hnext
  have hreaches := (Task.forward hrun).reaches a.state
  cases hresult : m a.state <;> rw [hresult] at hreaches <;> exact hreaches

/-- **A run moves forward.** -/
theorem Steps.reaches (hsteps : Steps env a b) : a.state.cursor.Reaches b.state.cursor := by
  induction hsteps with
  | refl => exact .refl _
  | tail _ hnext ih => exact ih.trans (reaches_next hnext)

/-- What a task reads decides the next stage. -/
lemma eq_of_run {m : Scanner (Registers σ) α} {resume : α → Task}
    (hrun : a.task.run env = some (resume <$> m)) (hnext : a.next env = some b) :
    (match m a.state with
      | .ok x t => ⟨resume x, t⟩
      | .error e t => ⟨.stopped e a.task.opened a.task.levels, t⟩) = b := by
  rw [next, hrun, Option.map_some, map_eq_pure_bind, Scanner.bind_apply] at hnext
  rw [← Option.some.inj hnext]
  cases m a.state <;> rfl

/-! ## Operands that are read later -/

/-- **A stage past a place** in front of so many characters: fewer are ahead. The stage of a value
also counts, and that of a link, if a closing parenthesis is the next thing ahead, and so does one
of an evaluation that has stopped. -/
inductive Past (n : Nat) : Stage σ → Prop
  | behind {a : Stage σ} : a.state.cursor.rest.length < n → Past n a
  | given {x : Float} {outer : Pending .operand} {s : Running (Registers σ)} :
      s.cursor.rest.length ≤ n → s.settle.cursor.current = some ')' → Past n ⟨.given x outer, s⟩
  | link {x : Float} {outer : Pending .chain} {s : Running (Registers σ)} :
      s.cursor.rest.length ≤ n → s.settle.cursor.current = some ')' → Past n ⟨.link x outer, s⟩
  | stopped {e : EvalError} {opened levels : Nat} {s : Running (Registers σ)} :
      Past n ⟨.stopped e opened levels, s⟩

/-- **A step from a stage past a place leads to one past it.**

**Proof sketch.** A step moves forward, so with fewer characters ahead there stay fewer. A value in
front of a closing parenthesis is handed over on the spot. A link reads the parenthesis, or the
evaluation stops there. -/
lemma Past.step {n : Nat} (h : a.Past n) (hnext : a.next env = some b) : b.Past n := by
  cases h with
  | behind hlength =>
    exact .behind ((reaches_next hnext).rest.length_le.trans_lt hlength)
  | given hlength hclose =>
    rename_i x outer s
    cases outer <;> obtain rfl := Option.some.inj hnext
    case first => exact .link hlength hclose
    case right => exact .link hlength hclose
    case sign => exact .given hlength hclose
  | link hlength hclose =>
    rename_i x outer s
    obtain rfl := eq_of_run rfl hnext
    cases hlink : Scanner.link outer.scope s with
    | error e t => exact .stopped
    | ok found t =>
      rcases Scanner.gains_of_link hlink with hgains | ⟨-, -, hnone⟩
      · exact .behind (hgains.length_lt.trans_le hlength)
      · rw [hclose] at hnone
        cases hnone
  | stopped =>
    rename_i e opened levels s
    cases levels with
    | zero => cases hnext
    | succ levels =>
      obtain rfl := Option.some.inj hnext
      exact .stopped

/-- A run from a stage past a place stays past it. -/
lemma Past.steps {n : Nat} (h : a.Past n) (hsteps : Steps env a b) : b.Past n := by
  induction hsteps with
  | refl => exact h
  | tail _ hnext ih => exact ih.step hnext

/-- **The stage behind the start of an operand is past the place where the operand starts.** -/
lemma past_of_operand {outer : Pending .operand} {s : Running (Registers σ)}
    (hnext : next env ⟨.operand outer, s⟩ = some b) : b.Past s.cursor.rest.length := by
  obtain rfl := eq_of_run rfl hnext
  cases hstart : opening env s with
  | error e t => exact .stopped
  | ok start t =>
    rcases gains_of_opening hstart with hgains | ⟨rfl, rfl, hclose⟩
    · exact .behind hgains.length_lt
    · refine .given s.length_rest_settle_le ?_
      rwa [Running.settle_settle]

/-- **An operand that is read later has less text ahead**, wherever it stands: nested in the earlier
one, or behind it in the same chain, in the next argument, or further out. -/
theorem length_lt_of_operand {outer outer' : Pending .operand} {s t : Running (Registers σ)}
    (hlater : Relation.TransGen (fun a b : Stage σ => a.next env = some b) ⟨.operand outer, s⟩
      ⟨.operand outer', t⟩) : t.cursor.rest.length < s.cursor.rest.length := by
  obtain ⟨b, hnext, hsteps⟩ := Relation.TransGen.head'_iff.mp hlater
  have hpast := (past_of_operand hnext).steps hsteps
  cases hpast with
  | behind hlength => exact hlength

end Stage

end Formula.Machine
