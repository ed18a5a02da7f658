import Formula.Proofs.Bookkeeping
import Formula.Proofs.Stages.Advance

set_option relaxedAutoImplicit false
set_option autoImplicit false

/-!
# Evaluation ends with the text

Why an evaluation ends is not plain to see: an operand may take nothing but blanks, and so may the
chain around it before it reads the operand. What ends it is the text. Each character pays for so
many steps, and what is under way keeps what is needed to leave it again; a step leaves less than
there was. So a run has no more steps than a multiple of the text's length, whether the text is
malformed or not, and however deep operands may be nested. The numbers of rounds that bound the
loops are never used up.

## Main definitions

* `Formula.Machine.Stage.potential` — how many steps can still be paid for.
* `Formula.Machine.Stage.after` — the stage so many steps later.

## Main results

* `Formula.Machine.Stage.potential_lt` — a step lowers the potential.
* `Formula.Machine.Stage.exists_end` — a run ends within its potential.
* `Formula.Machine.chainRest_of_length_le`, `Formula.Machine.memberPath_of_length_lt` — more rounds
  make no difference.
* `Formula.Machine.progress` — evaluation moves through the text, and ends.
-/

namespace Formula.Machine

variable {ω σ α : Type}

/-! ## What is paid for -/

/-- **The steps kept for what is under way**: leaving a sign takes one, and leaving a group or a
call some more. -/
def Pending.weight : {a : Awaited} → Pending a → Nat
  | _, first outer => outer.weight
  | _, right _ _ outer => outer.weight
  | _, sign _ outer => outer.weight + 1
  | _, whole => 0
  | _, group outer => outer.weight + 3
  | _, argument _ _ outer => outer.weight + 5

/-- **The steps kept for a task**, in front of the next character that is read. Behind the comma of
an argument another argument follows, and there is the more to do. -/
def Task.weight : Task → Nat
  | operand outer => outer.weight + 4
  | lookUp _ outer => outer.weight + 11
  | enter _ outer => outer.weight + 10
  | given _ outer => outer.weight + 3
  | link _ outer => outer.weight + 2
  | ended _ ending outer =>
    outer.weight + if outer.scope = .argument ∧ ending ≠ .close then 5 else 1
  | complete _ _ outer => outer.weight + 5
  | invoke _ _ outer => outer.weight + 4
  | stopped _ _ levels => levels

/-- Enough is kept for what is under way to leave its levels. -/
lemma Pending.levels_le_weight {a : Awaited} (outer : Pending a) : outer.levels ≤ outer.weight := by
  induction outer <;> simp only [levels, weight] <;> omega

/-- What waits for the first operand inside keeps at most as much as an argument. -/
lemma Inside.weight_waiting_le (inside : Inside) (outer : Pending .operand) :
    (inside.waiting outer).weight ≤ outer.weight + 5 := by
  cases inside <;> simp only [waiting, Pending.weight] <;> omega

namespace Stage

/-- **How many steps can still be paid for.** -/
def potential (a : Stage σ) : Nat :=
  8 * a.state.cursor.rest.length + a.task.weight

variable {env : Env ω (Registers σ)} {a b : Stage σ}

/-- A step lowers the potential if less is kept for the next task. -/
lemma potential_of_weight (hnext : a.next env = some b) (h : b.task.weight < a.task.weight) :
    b.potential < a.potential := by
  have hle := (reaches_next hnext).rest.length_le
  simp only [potential]
  omega

/-- A step lowers the potential if it takes a character. -/
lemma potential_of_gains (hgains : a.state.cursor.Gains b.state.cursor)
    (h : b.task.weight < a.task.weight + 8) : b.potential < a.potential := by
  have hlt := hgains.length_lt
  simp only [potential]
  omega

/-- **Reading the start of an operand lowers the potential**: a character pays for it, or the
operand is left out. -/
lemma potential_operand {outer : Pending .operand} {s : Running (Registers σ)}
    (hnext : next env ⟨.operand outer, s⟩ = some b) :
    b.potential < potential ⟨.operand outer, s⟩ := by
  obtain rfl := eq_of_run rfl hnext
  cases hstart : opening env s with
  | error e t =>
    have hle := outer.levels_le_weight
    rw [hstart] at hnext
    refine potential_of_weight hnext ?_
    show outer.levels < outer.weight + 4
    omega
  | ok start t =>
    rw [hstart] at hnext
    rcases gains_of_opening hstart with hgains | ⟨rfl, rfl, -⟩
    · refine potential_of_gains hgains ?_
      cases start <;> simp only [Task.ofOpening, Task.weight] <;> omega
    · refine potential_of_weight hnext ?_
      simp only [Task.ofOpening, Task.weight]
      omega

/-- **Reading a link lowers the potential**: a character pays for it, or the whole text ends. -/
lemma potential_link {x : Float} {outer : Pending .chain} {s : Running (Registers σ)}
    (hnext : next env ⟨.link x outer, s⟩ = some b) :
    b.potential < potential ⟨.link x outer, s⟩ := by
  obtain rfl := eq_of_run rfl hnext
  cases hlink : Scanner.link outer.scope s with
  | error e t =>
    have hle := outer.levels_le_weight
    rw [hlink] at hnext
    refine potential_of_weight hnext ?_
    show outer.levels < outer.weight + 2
    omega
  | ok found t =>
    rw [hlink] at hnext
    rcases Scanner.gains_of_link hlink with hgains | ⟨rfl, hwhole, -⟩
    · refine potential_of_gains hgains ?_
      cases found <;> simp only [Task.ofLink, Task.weight, Pending.weight]
      · split_ifs <;> omega
      · omega
    · refine potential_of_weight hnext ?_
      simp [Task.ofLink, Task.weight, hwhole]

/-- **Handing over the value of an operand lowers the potential.** -/
lemma potential_given {x : Float} {outer : Pending .operand} {s : Running (Registers σ)}
    (hnext : next env ⟨.given x outer, s⟩ = some b) :
    b.potential < potential ⟨.given x outer, s⟩ := by
  refine potential_of_weight hnext ?_
  cases outer with
  | first outer =>
    obtain rfl : ⟨.link x outer, s⟩ = b := Option.some.inj hnext
    show outer.weight + 2 < outer.weight + 3
    omega
  | right value op outer =>
    obtain rfl : ⟨.link (op.apply value x) outer, s⟩ = b := Option.some.inj hnext
    show outer.weight + 2 < outer.weight + 3
    omega
  | sign negative outer =>
    obtain rfl : ⟨.given (signed negative x) outer, back s⟩ = b := Option.some.inj hnext
    show outer.weight + 3 < outer.weight + 1 + 3
    omega

/-- **Handing over the value of a chain lowers the potential.** Another argument follows behind a
comma only, and then enough has been kept for it. -/
lemma potential_ended {x : Float} {ending : Ending} {outer : Pending .chain}
    {s : Running (Registers σ)} (hnext : next env ⟨.ended x ending outer, s⟩ = some b) :
    b.potential < potential ⟨.ended x ending outer, s⟩ := by
  refine potential_of_weight hnext ?_
  cases outer with
  | whole => cases hnext
  | group outer =>
    obtain rfl : ⟨.given x outer, back s⟩ = b := Option.some.inj hnext
    simp only [Task.weight, Pending.weight]
    split_ifs <;> omega
  | argument f seen outer =>
    have hle := outer.levels_le_weight
    rw [next_argument] at hnext
    obtain rfl := Option.some.inj hnext
    cases htake : f.take seen x (ending == .close) with
    | complete args =>
      simp only [Task.weight, Pending.weight]
      split_ifs <;> omega
    | wrong =>
      simp only [Task.weight, Pending.weight]
      split_ifs <;> omega
    | more =>
      have hopen : (Pending.argument f seen outer).scope = .argument ∧ ending ≠ .close := by
        refine ⟨rfl, ?_⟩
        rintro rfl
        cases Builtin.last_of_more htake
      simp only [Task.weight, Pending.weight]
      rw [if_pos hopen]
      omega

/-- **A step lowers the potential.**

**Proof sketch.** One case for each task. Where something is read, a character pays for the step.
Where a value is handed over, less is to be done than before, since what it takes to leave what is
under way had been kept. An error gives up all of that but the levels. -/
theorem potential_lt (hnext : a.next env = some b) : b.potential < a.potential := by
  obtain ⟨task, s⟩ := a
  cases task with
  | operand outer => exact potential_operand hnext
  | link value outer => exact potential_link hnext
  | given x outer => exact potential_given hnext
  | ended x ending outer => exact potential_ended hnext
  | lookUp name outer =>
    refine potential_of_weight hnext ?_
    rw [next_lookUp] at hnext
    obtain rfl := Option.some.inj hnext
    have hle := outer.levels_le_weight
    cases Builtin.named? name <;> simp only [Task.weight] <;> omega
  | enter inside outer =>
    refine potential_of_weight hnext ?_
    rw [next_enter] at hnext
    obtain rfl := Option.some.inj hnext
    have hle := outer.levels_le_weight
    have hwaiting := inside.weight_waiting_le outer
    split_ifs <;> simp only [Task.weight] <;> omega
  | complete f args outer =>
    refine potential_of_weight hnext ?_
    obtain rfl : ⟨.invoke f args outer, back s⟩ = b := Option.some.inj hnext
    show outer.weight + 4 < outer.weight + 5
    omega
  | invoke f args outer =>
    obtain rfl := eq_of_run rfl hnext
    refine potential_of_weight hnext ?_
    dsimp only
    have hle := outer.levels_le_weight
    cases Scanner.invoke env f args s with
    | ok x t =>
      show outer.weight + 3 < outer.weight + 4
      omega
    | error e t =>
      show outer.levels < outer.weight + 4
      omega
  | stopped e opened levels =>
    refine potential_of_weight hnext ?_
    cases levels with
    | zero => cases hnext
    | succ levels =>
      obtain rfl : ⟨.stopped e opened levels, back s⟩ = b := Option.some.inj hnext
      exact Nat.lt_succ_self levels

/-! ## Runs end -/

/-- **The stage so many steps later**, if the run does not end before. -/
def after (env : Env ω (Registers σ)) : Nat → Stage σ → Option (Stage σ)
  | 0, a => some a
  | n + 1, a => (a.next env).bind (after env n)

/-- The stage some steps later is reached. -/
lemma steps_of_after {n : Nat} (h : after env n a = some b) : Steps env a b := by
  induction n generalizing a with
  | zero =>
    obtain rfl := Option.some.inj h
    exact .refl
  | succ n ih =>
    obtain ⟨c, hnext, hafter⟩ := Option.bind_eq_some_iff.mp h
    exact .head hnext (ih hafter)

/-- **There is a next stage unless there is a result.** -/
lemma result_of_next (h : a.next env = none) : ∃ result, a.result? = some result := by
  have hrun : a.task.run env = none := Option.map_eq_none_iff.mp h
  obtain ⟨task, s⟩ := a
  cases task with
  | ended x ending outer =>
    cases outer with
    | whole => exact ⟨.ok x, rfl⟩
    | group outer => cases hrun
    | argument f seen outer => cases hrun
  | stopped e opened levels =>
    cases levels with
    | zero => exact ⟨.error e, rfl⟩
    | succ levels => cases hrun
  | given x outer => cases outer <;> cases hrun
  | _ => cases hrun

/-- **A run ends within its potential.**

**Proof sketch.** Induction on a bound of the potential, which each step lowers. -/
theorem exists_end {n : Nat} (hn : a.potential ≤ n) :
    ∃ k ≤ n, ∃ last result, after env k a = some last ∧ last.result? = some result := by
  induction n using Nat.strong_induction_on generalizing a with
  | _ n ih =>
    cases hnext : a.next env with
    | none =>
      obtain ⟨result, hresult⟩ := result_of_next hnext
      exact ⟨0, Nat.zero_le n, a, result, rfl, hresult⟩
    | some b =>
      have hlt : b.potential < a.potential := potential_lt hnext
      obtain ⟨k, hk, last, result, hafter, hresult⟩ :=
        ih b.potential (hlt.trans_le hn) (Nat.le_refl _)
      refine ⟨k + 1, by omega, last, result, ?_, hresult⟩
      rw [after, hnext, Option.bind_some, hafter]

end Stage

/-! ## Rounds that are never used up -/

/-- **More rounds make no difference to a chain** than there are characters ahead.

**Proof sketch.** Induction on the rounds. A link that goes on takes a character, and the operand
behind it moves forward. -/
lemma chainRest_of_length_le {one : Scanner σ Float} (hone : Scanner.Forward one) (scope : Scope)
    {n k : Nat} (r : Float) {s : Running σ} (hn : s.cursor.rest.length ≤ n)
    (hk : s.cursor.rest.length ≤ k) :
    Scanner.chainRest one scope n r s = Scanner.chainRest one scope k r s := by
  induction n generalizing k r s with
  | zero =>
    obtain ⟨⟨⟨p, cs⟩, d⟩, h⟩ := s
    obtain rfl : cs = [] := List.length_eq_zero_iff.mp (Nat.le_zero.mp hn)
    rw [Scanner.chainRest_nil, Scanner.chainRest_nil]
  | succ n ih =>
    cases k with
    | zero =>
      obtain ⟨⟨⟨p, cs⟩, d⟩, h⟩ := s
      obtain rfl : cs = [] := List.length_eq_zero_iff.mp (Nat.le_zero.mp hk)
      rw [Scanner.chainRest_nil, Scanner.chainRest_nil]
    | succ k =>
      rw [Scanner.chainRest_eq_link, Scanner.chainRest_eq_link]
      refine Scanner.bind_congr fun found t hlink => ?_
      cases found with
      | ended ending => rfl
      | operator op =>
        have hfewer := (Scanner.rest_of_link hlink).1
        refine Scanner.bind_congr fun x u hx => ?_
        have hle := (hone.reaches_of_ok hx).rest.length_le
        exact ih (op.apply r x) (by omega) (by omega)

/-- **More rounds make no difference to a path** than it takes to read all characters ahead.

**Proof sketch.** Induction on the rounds. A name is not empty, so behind it there is less text
ahead, and a point only moves further on. -/
lemma memberPath_of_length_lt (env : Env ω (Registers σ)) {n k : Nat} (target : Option ω)
    {s : Running (Registers σ)} (hn : s.cursor.rest.length < n) (hk : s.cursor.rest.length < k) :
    memberPath env n target s = memberPath env k target s := by
  induction n generalizing k target s with
  | zero => omega
  | succ n ih =>
    cases k with
    | zero => omega
    | succ k =>
      rw [memberPath_succ, memberPath_succ]
      refine Scanner.bind_congr fun _ t hclear => Scanner.bind_congr fun name u hname =>
        Scanner.bind_congr fun _ v hgather => ?_
      by_cases hempty : name = []
      · simp only [hempty, if_true]
      · simp only [hempty, if_false]
        refine Scanner.bind_congr fun found w hfound => Scanner.bind_congr fun more z hmore => ?_
        cases more with
        | false => rfl
        | true =>
          have hclear' := (Scanner.Forward.clear.reaches_of_ok hclear).rest.length_le
          have hgather' := ((Scanner.Forward.gather name).reaches_of_ok hgather).rest.length_le
          have hfound' := ((Scanner.Forward.memberOf env _ target).reaches_of_ok
            hfound).rest.length_le
          have hmore' := ((Scanner.Forward.accept '.').reaches_of_ok hmore).rest.length_le
          have htaken : u.cursor.rest.length < t.cursor.rest.length := by
            rw [Scanner.takeRun_apply] at hname
            obtain ⟨rfl, rfl⟩ := EStateM.Result.ok.inj hname
            have hsum := congrArg List.length
              (List.takeWhile_append_dropWhile (p := Text.isWordChar) (l := t.cursor.rest))
            have hpos : 0 < (t.cursor.run Text.isWordChar).length := List.length_pos_iff.mpr hempty
            rw [List.length_append] at hsum
            rw [Cursor.run] at hpos
            show (t.cursor.rest.dropWhile Text.isWordChar).length < t.cursor.rest.length
            omega
          exact ih found (by omega) (by omega)

/-! ## From the start to the end -/

namespace Passes

variable {m : Machine} {env : Env ω σ} {text : String} {host : σ} {a b : Stage σ}

/-- **The stages that a machine passes stand in the text**, each in front of what is left of it. -/
lemma in_text (ha : m.Passes env text host a) :
    a.state.cursor.position ≤ text.toList.length ∧
      a.state.cursor.rest = text.toList.drop a.state.cursor.position := by
  have hreaches : (Cursor.start text.toList).Reaches a.state.cursor := Stage.Steps.reaches ha
  exact hreaches.of_start

/-- **What an operand with a value has read**: more than blanks; or nothing else, and then it is
zero, and a closing parenthesis is ahead. -/
lemma read_of_operand {outer : Pending .operand} {s t : Running (Registers σ)} {x : Float}
    (ha : m.Passes env text host ⟨.operand outer, s⟩)
    (hrun : operand env.onRegisters (env.maxDepth - s.host.nesting) s = .ok x t) :
    Stage.Steps env.onRegisters ⟨.operand outer, s⟩ ⟨.given x outer, t⟩ ∧
      ∃ read, s.cursor.rest = read ++ t.cursor.rest ∧
        ((∃ c ∈ read, Text.isBlank c = false) ∨
          x = 0.0 ∧ Blanks read ∧ t.cursor.current = some ')') := by
  have hreturns := ha.returns_operand
  rw [hrun] at hreturns
  refine ⟨hreturns.1, ?_⟩
  rcases gains_of_operand hrun with ⟨read, hrest, hread⟩ | ⟨hzero, rfl, hclose⟩
  · exact ⟨read, hrest, .inl hread⟩
  · exact ⟨s.cursor.rest.takeWhile Text.isBlank, List.takeWhile_append_dropWhile.symm,
      .inr ⟨hzero, List.all_eq_true.mp List.all_takeWhile, hclose⟩⟩

end Passes

/-- **The run of a machine on a text ends** within eight steps for each character, and four. -/
lemma exists_result (m : Machine) (env : Env ω σ) (text : String) (host : σ) :
    ∃ n ≤ 8 * text.toList.length + 4, ∃ last,
      Stage.after env.onRegisters n (.initial (m.recycle.start text host)) = some last ∧
        last.result? = some (m.eval env text host).1 := by
  obtain ⟨n, hn, last, result, hafter, hresult⟩ :
      ∃ n ≤ 8 * text.toList.length + 4, ∃ last result,
        Stage.after env.onRegisters n (.initial (m.recycle.start text host)) = some last ∧
          last.result? = some result :=
    Stage.exists_end (Nat.le_refl _)
  have hpasses : m.Passes env text host last := Stage.steps_of_after hafter
  refine ⟨n, hn, last, hafter, ?_⟩
  rw [hresult, (hpasses.result_eq hresult).1]

/-- **Evaluation moves through the text, and ends.** Whatever the text, what is given besides it,
and the machine:

* Each stage that the machine passes stands in the text, in front of what is left of it, and none
  stands in front of an earlier one.
* An operand that gives a value has read a character that is no blank. Otherwise it has read blanks
  only, it is zero, and it stands in front of a closing parenthesis.
* An operand that is read later than another one, nested in it or behind it, starts with less text
  ahead.
* After at most eight steps for each character, and four, the run comes to the result of the
  evaluation, a value or an error.
* The rounds in which chains and paths are read are never used up: with more of them the same is
  read.

**Proof sketch.** Each step moves forward. The start of an operand and a link take a character,
unless an operand is left out or the whole text ends. So a step is paid for by a character or by
what has been kept for the task, and there is a next step until there is a result. -/
theorem progress (m : Machine) (env : Env ω σ) (text : String) (host : σ) :
    (∀ a, m.Passes env text host a →
      a.state.cursor.position ≤ text.toList.length ∧
      a.state.cursor.rest = text.toList.drop a.state.cursor.position ∧
      ∀ b, Stage.Steps env.onRegisters a b →
        a.state.cursor.position ≤ b.state.cursor.position) ∧
    (∀ outer s x t, m.Passes env text host ⟨.operand outer, s⟩ →
      operand env.onRegisters (env.maxDepth - s.host.nesting) s = .ok x t →
      Stage.Steps env.onRegisters ⟨.operand outer, s⟩ ⟨.given x outer, t⟩ ∧
      ∃ read, s.cursor.rest = read ++ t.cursor.rest ∧
        ((∃ c ∈ read, Text.isBlank c = false) ∨
          x = 0.0 ∧ Blanks read ∧ t.cursor.current = some ')')) ∧
    (∀ outer outer' s t, m.Passes env text host ⟨.operand outer, s⟩ →
      Relation.TransGen (fun a b : Stage σ => a.next env.onRegisters = some b)
        ⟨.operand outer, s⟩ ⟨.operand outer', t⟩ →
      t.cursor.rest.length < s.cursor.rest.length) ∧
    (∃ n ≤ 8 * text.toList.length + 4, ∃ last,
      Stage.after env.onRegisters n (.initial (m.recycle.start text host)) = some last ∧
        last.result? = some (m.eval env text host).1) ∧
    (∀ levels scope n x s, s.cursor.rest.length ≤ n →
      Scanner.chainRest (operand env.onRegisters levels) scope n x s =
        Scanner.chainRest (operand env.onRegisters levels) scope s.cursor.rest.length x s) ∧
    ∀ n target s, s.cursor.rest.length < n →
      memberPath env.onRegisters n target s = path env.onRegisters target s := by
  refine ⟨fun a ha => ?_, fun outer s x t ha hrun => ha.read_of_operand hrun,
    fun outer outer' s t _ hlater => Stage.length_lt_of_operand hlater,
    exists_result m env text host, fun levels scope n x s hn => ?_, fun n target s hn => ?_⟩
  · obtain ⟨hposition, hrest⟩ := ha.in_text
    exact ⟨hposition, hrest, fun b hsteps => (Stage.Steps.reaches hsteps).position_le⟩
  · exact chainRest_of_length_le (.machine_operand env.onRegisters levels) scope x hn
      (Nat.le_refl _)
  · have hrounds : s.cursor.rest.length < s.cursor.rest.length + 1 := Nat.lt_succ_self _
    exact memberPath_of_length_lt env.onRegisters target hn hrounds

/-- On a group of which the operand is left out: it starts with less text ahead than the group does,
and reads nothing in front of the parenthesis. -/
theorem progress_empty_group :
    let env : Env Json Generator := .ofDocument .null 128
    let s : Running (Registers Generator) := blank.recycle.start "()" 5
    let t : Running (Registers Generator) := ⟨⟨⟨1, [')']⟩, 1⟩, ⟨[], 1, 5⟩⟩
    let inside : Pending .operand := .first (.group (.first .whole))
    blank.Passes env "()" 5 ⟨.operand (.first .whole), s⟩ ∧
      blank.Passes env "()" 5 ⟨.operand inside, t⟩ ∧
      Relation.TransGen (fun a b : Stage Generator => a.next env.onRegisters = some b)
        ⟨.operand (.first .whole), s⟩ ⟨.operand inside, t⟩ ∧
      t.cursor.rest.length < s.cursor.rest.length ∧
      operand env.onRegisters (env.maxDepth - t.host.nesting) t = .ok 0.0 t ∧
      Stage.Steps env.onRegisters ⟨.operand inside, t⟩ ⟨.given 0.0 inside, t⟩ ∧
      t.cursor.current = some ')' := by
  intro env s t inside
  have hopen : Stage.next env.onRegisters ⟨.operand (.first .whole), s⟩ =
      some ⟨.enter .group (.first .whole), ⟨⟨⟨1, [')']⟩, 1⟩, ⟨[], 0, 5⟩⟩⟩ := rfl
  have henter : Stage.next env.onRegisters
      ⟨.enter .group (.first .whole), ⟨⟨⟨1, [')']⟩, 1⟩, ⟨[], 0, 5⟩⟩⟩ =
        some ⟨.operand inside, t⟩ := rfl
  have hstart : blank.Passes env "()" 5 ⟨.operand (.first .whole), s⟩ := .refl
  have hpasses : blank.Passes env "()" 5 ⟨.operand inside, t⟩ :=
    .tail (.tail hstart hopen) henter
  have hlater : Relation.TransGen (fun a b : Stage Generator => a.next env.onRegisters = some b)
      ⟨.operand (.first .whole), s⟩ ⟨.operand inside, t⟩ := .tail (.single hopen) henter
  have hrun : operand env.onRegisters (env.maxDepth - t.host.nesting) t = .ok 0.0 t := rfl
  obtain ⟨-, hreads, hshorter, -⟩ := progress blank env "()" (5 : Generator)
  obtain ⟨hgiven, read, hrest, hread⟩ := hreads inside t 0.0 t hpasses hrun
  refine ⟨hstart, hpasses, hlater, hshorter _ _ s t hstart hlater, hrun, hgiven, ?_⟩
  -- nothing has been read, so no character that is no blank has
  obtain rfl : read = [] := by simpa using hrest
  rcases hread with ⟨c, hc, -⟩ | ⟨-, -, hclose⟩
  · cases hc
  · exact hclose

end Formula.Machine
