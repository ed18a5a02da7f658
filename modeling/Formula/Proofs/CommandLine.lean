import Formula.CommandLine.Response
import Formula.Proofs.Draws.Steady
import Formula.Proofs.History

set_option relaxedAutoImplicit false
set_option autoImplicit false

/-!
# A command line answers for all its formulas or for none

All formulas of a command line are evaluated by one engine, in turn. This is as if each of them had
an engine of its own: what one leaves to the next is the host's state alone, and that matters only
for random numbers. Results are written only if the options, the context and all formulas are in
order; otherwise the first failure is reported, and nothing behind it has been evaluated.

Options that load may still ask for more machines than there is room for. The program ends then in
front of the first formula, with an exit code that is none of those for failures it handles.

## Main definitions

* `Formula.CommandLine.alone` — what a formula gives that is evaluated alone.
* `Formula.CommandLine.InTurn` — formulas evaluated one after the other, each alone.
* `Formula.CommandLine.Answerable` — everything that a command line asks for is in order.
* `Formula.CommandLine.HasRoom` — there is room for the machines that options ask for.
* `Formula.CommandLine.FirstFailure` — the first thing that is not.
* `Formula.CommandLine.report` — one result a line.

## Main results

* `Formula.CommandLine.evalAll_of_inTurn`, `Formula.CommandLine.evalAll_of_failure` — one engine for
  all formulas gives what engines of their own give, up to the first failure.
* `Formula.CommandLine.all_or_nothing` — a command line answers for all its formulas or for none.
* `Formula.CommandLine.all_or_nothing_no_room` — it does not when there is no room for machines.
-/

namespace Formula

variable {σ : Type}

/-! ## Verdicts -/

namespace SameVerdict

/-- A value has the same verdict as values only. -/
lemma exists_ok {r₁ r₂ : Except EvalError Float} (h : SameVerdict r₁ r₂) {x : Float}
    (h₁ : r₁ = .ok x) : ∃ y, r₂ = .ok y := by
  subst h₁
  cases r₂ with
  | ok y => exact ⟨y, rfl⟩
  | error e => exact h.elim

/-- An error has the same verdict as itself only. -/
lemma eq_error {r₁ r₂ : Except EvalError Float} (h : SameVerdict r₁ r₂) {e : EvalError}
    (h₁ : r₁ = .error e) : r₂ = .error e := by
  subst h₁
  cases r₂ with
  | ok y => exact h.elim
  | error e' => exact congrArg Except.error (Eq.symm h)

end SameVerdict

/-- **A call without a pool is an evaluation from nothing** at a sample of the clock. -/
lemma Engine.answer_apply {ω : Type} (engine : Engine ω σ) (text : String) (context : ω)
    (host : σ) :
    engine.answer text context host =
      let env := engine.env context (engine.clock host).1
      let host := (engine.clock host).2
      ((Evaluator.blank.eval env text host).1, (Evaluator.blank.eval env text host).2.2) := by
  let env := engine.env context (engine.clock host).1
  show ((Machine.blank.eval env text (engine.clock host).2).1,
    (Machine.blank.eval env text (engine.clock host).2).2.2) = _
  rw [Machine.eval_eq]

/-- The verdict on a text does not depend on the host's state. -/
lemma Engine.answer_verdict {ω : Type} (engine : Engine ω σ) (text : String) (context : ω)
    (host host' : σ) : SameVerdict (engine.answer text context host).1
      (engine.answer text context host').1 := by
  have hlimit : (engine.env context (engine.clock host).1).maxDepth =
      (engine.env context (engine.clock host').1).maxDepth := rfl
  rw [Engine.answer_apply, Engine.answer_apply]
  exact sameVerdict_of_maxDepth_eq .blank .blank hlimit text _ _

namespace CommandLine

/-! ## What is asked for -/

/-- **The options that are asked for**: the defaults, or those that the text of a file sets. -/
inductive OptionsLoad (textOf : String → Except FileFault String) : Option String → Options → Prop
  | default : OptionsLoad textOf none Options.default
  | file {path text : String} {options : Options} : textOf path = .ok text →
      Options.read text = .ok options → OptionsLoad textOf (some path) options

/-- **The context that is asked for**: null, or a document that a text writes. -/
inductive ContextLoads : Option String → Json → Prop
  | absent : ContextLoads none .null
  | text {text : String} {context : Json} : Json.read text = .ok context →
      ContextLoads (some text) context

/-- The engine for the formulas of a command line. -/
def Arguments.engine (a : Arguments) (around : Surroundings σ) (options : Options) :
    Engine Json σ :=
  Engine.new options documents (a.clock around.clock) around.random

/-- **What a formula gives that is evaluated alone**: by an engine of its own, with the options, the
context and the clock that are asked for. -/
def alone (around : Surroundings σ) (a : Arguments) (options : Options) (context : Json)
    (text : String) : StateM σ (Except EvalError Float) := fun host =>
  let (result, _, host) := (a.engine around options).eval text context host
  (result, host)

/-- **A formula draws no random number** when it is evaluated alone from a state of the host, with
the clock standing still at a tick. -/
def DrawsNothing (around : Surroundings σ) (options : Options) (context : Json) (tick : Tick)
    (text : String) (host : σ) : Prop :=
  ((Engine.new options documents.recorded (Clock.fixed tick) around.random.recorded).eval text
    context ⟨[], host⟩).2.2.draws = []

/-- **Formulas evaluated one after the other**, each in the state in which the one before it has
left the host, and each to a value. -/
inductive InTurn (evaluate : String → StateM σ (Except EvalError Float)) :
    σ → List String → List Float → σ → Prop
  | nil (host : σ) : InTurn evaluate host [] [] host
  | cons {host host' host'' : σ} {text : String} {texts : List String} {x : Float}
      {xs : List Float} : evaluate text host = (.ok x, host') →
      InTurn evaluate host' texts xs host'' →
      InTurn evaluate host (text :: texts) (x :: xs) host''

/-- **Everything that is asked for is in order**: the options and the context load, and each formula
has a value when it is evaluated alone. -/
structure Answerable (around : Surroundings σ) (a : Arguments) (host : σ) (options : Options)
    (context : Json) : Prop where
  configured : OptionsLoad around.textOf a.config options
  loaded : ContextLoads a.context context
  evaluated : ∀ text ∈ a.formulas, ∃ x, (alone around a options context text host).1 = .ok x

/-- **There is room** for the machines that options ask to be kept: a block for all of them is
possible and granted, unless there are none. -/
structure HasRoom (memory : Memory) (options : Options) : Prop where
  possible : Machine.size * options.poolCapacity < Memory.bound
  granted : Machine.size * options.poolCapacity = 0 ∨
    memory.grants (Machine.size * options.poolCapacity) = true

/-- There is room when it can be reserved. -/
lemma hasRoom_iff {memory : Memory} {options : Options} :
    HasRoom memory options ↔ memory.reserve Machine.size options.poolCapacity = .ok () := by
  rw [Memory.reserve_eq_ok_iff]
  exact ⟨fun h => ⟨h.possible, h.granted⟩, fun h => ⟨h.1, h.2⟩⟩

/-- **The first failure**: that of the file with options, of its text, of the context, of memory, or
of a formula that has no value when it is evaluated alone, all formulas before it having one. -/
inductive FirstFailure (memory : Memory) (around : Surroundings σ) (a : Arguments) (host : σ) :
    Failure → Prop
  | unreadable {path : String} {fault : FileFault} : a.config = some path →
      around.textOf path = .error fault → FirstFailure memory around a host (.unreadable path fault)
  | options {path text : String} {fault : Options.Fault} : a.config = some path →
      around.textOf path = .ok text → Options.read text = .error fault →
      FirstFailure memory around a host (.options fault)
  | context {options : Options} {text : String} {fault : Json.Fault} :
      OptionsLoad around.textOf a.config options → a.context = some text →
      Json.read text = .error fault → FirstFailure memory around a host (.context fault)
  | memory {options : Options} {context : Json} {fault : Memory.Fault} :
      OptionsLoad around.textOf a.config options → ContextLoads a.context context →
      memory.reserve Machine.size options.poolCapacity = .error fault →
      FirstFailure memory around a host (.memory fault)
  | formula {options : Options} {context : Json} {before after : List String} {text : String}
      {error : EvalError} : OptionsLoad around.textOf a.config options →
      ContextLoads a.context context → HasRoom memory options →
      a.formulas = before ++ text :: after →
      (∀ t ∈ before, ∃ x, (alone around a options context t host).1 = .ok x) →
      (alone around a options context text host).1 = .error error →
      FirstFailure memory around a host (.formula error)

/-- **One result a line.** -/
def report (xs : List Float) : String :=
  String.join (xs.map fun x => Number.plain.text x ++ "\n")

/-! ## One engine for all formulas -/

/-- A formula that is evaluated alone gives what a call without a pool gives. -/
lemma alone_eq (around : Surroundings σ) (a : Arguments) (options : Options) (context : Json)
    (text : String) :
    alone around a options context text = (a.engine around options).answer text context := by
  funext host
  rw [alone, Engine.eval_eq]
  rfl

section

variable {engine : Engine Json σ} {context : Json}

/-- **One engine for all formulas gives what each gives alone**, if all have a value.

**Proof sketch.** Induction on the formulas. The engine behind the first one answers as the engine
in front of it. -/
theorem evalAll_of_inTurn {host host' : σ} {texts : List String} {xs : List Float}
    (h : InTurn (fun text => engine.answer text context) host texts xs host') :
    ∃ engine', engine.evalAll context host texts = (.ok xs, engine', host') := by
  induction texts generalizing engine host xs with
  | nil =>
    cases h
    exact ⟨engine, rfl⟩
  | cons text texts ih =>
    cases h with
    | cons hfirst hrest =>
      have hrest' : InTurn (fun text => engine.evaluated.answer text context) _ _ _ _ := hrest
      obtain ⟨engine', hall⟩ := ih hrest'
      refine ⟨engine', ?_⟩
      rw [Engine.evalAll, Engine.eval_eq, hfirst]
      dsimp only
      rw [hall]

/-- **The first formula without a value ends the evaluation**: the host is left as this formula
leaves it, whatever formulas follow. -/
theorem evalAll_of_failure {host host' host'' : σ} {before : List String} {xs : List Float}
    (h : InTurn (fun text => engine.answer text context) host before xs host') {text : String}
    {error : EvalError} (herror : engine.answer text context host' = (.error error, host''))
    (after : List String) :
    ∃ engine', engine.evalAll context host (before ++ text :: after) =
      (.error error, engine', host'') := by
  induction before generalizing engine host xs with
  | nil =>
    cases h
    refine ⟨engine.evaluated, ?_⟩
    rw [List.nil_append, Engine.evalAll, Engine.eval_eq, herror]
  | cons first before ih =>
    cases h with
    | cons hfirst hrest =>
      have hrest' : InTurn (fun text => engine.evaluated.answer text context) _ _ _ _ := hrest
      obtain ⟨engine', hall⟩ := ih hrest' herror
      refine ⟨engine', ?_⟩
      rw [List.cons_append, Engine.evalAll, Engine.eval_eq, hfirst]
      dsimp only
      rw [hall]

/-- Formulas that have a value from one state of the host have values in turn, from any state. -/
lemma exists_inTurn {host₀ : σ} {texts : List String}
    (h : ∀ text ∈ texts, ∃ x, (engine.answer text context host₀).1 = .ok x) (host : σ) :
    ∃ xs host', InTurn (fun text => engine.answer text context) host texts xs host' := by
  induction texts generalizing host with
  | nil => exact ⟨[], host, .nil host⟩
  | cons text texts ih =>
    obtain ⟨x₀, hx₀⟩ := h text List.mem_cons_self
    obtain ⟨x, hx⟩ := (engine.answer_verdict text context host₀ host).exists_ok hx₀
    obtain ⟨xs, host', hrest⟩ := ih (fun t ht => h t (List.mem_cons_of_mem text ht))
      (engine.answer text context host).2
    exact ⟨x :: xs, host', .cons (Prod.ext hx rfl) hrest⟩

/-- **All formulas have a value, or there is a first one that has none.** -/
lemma all_ok_or_first_error (host : σ) (texts : List String) :
    (∀ text ∈ texts, ∃ x, (engine.answer text context host).1 = .ok x) ∨
      ∃ before text after error, texts = before ++ text :: after ∧
        (∀ t ∈ before, ∃ x, (engine.answer t context host).1 = .ok x) ∧
        (engine.answer text context host).1 = .error error := by
  induction texts with
  | nil => exact .inl fun t ht => absurd ht List.not_mem_nil
  | cons text texts ih =>
    cases hfirst : (engine.answer text context host).1 with
    | error error =>
      exact .inr ⟨[], text, texts, error, rfl, fun t ht => absurd ht List.not_mem_nil, hfirst⟩
    | ok x =>
      have hcons {rest : List String}
          (hrest : ∀ t ∈ rest, ∃ x, (engine.answer t context host).1 = .ok x) :
          ∀ t ∈ text :: rest, ∃ x, (engine.answer t context host).1 = .ok x := by
        rintro t (_ | ⟨_, ht⟩)
        · exact ⟨x, hfirst⟩
        · exact hrest t ht
      rcases ih with hall | ⟨before, t, after, error, rfl, hbefore, herror⟩
      · exact .inl (hcons hall)
      · exact .inr ⟨text :: before, t, after, error, rfl, hcons hbefore, herror⟩

end

/-! ## What is loaded -/

/-- A file with options is read, and then its text. -/
lemma loadOptions_some (textOf : String → Except FileFault String) (path : String) :
    loadOptions textOf (some path) = match textOf path with
      | .error fault => .error (.unreadable path fault)
      | .ok text => (Options.read text).mapError .options := rfl

/-- A context is read from its text. -/
lemma loadContext_some (text : String) :
    loadContext (some text) = (Json.read text).mapError .context := rfl

/-- The options that are asked for are those that are loaded. -/
lemma loadOptions_eq_ok {textOf : String → Except FileFault String} {config : Option String}
    {options : Options} (h : OptionsLoad textOf config options) :
    loadOptions textOf config = .ok options := by
  cases h with
  | default => rfl
  | file htext hread =>
    rw [loadOptions_some, htext]
    dsimp only
    rw [hread]
    rfl

/-- The context that is asked for is the one that is loaded. -/
lemma loadContext_eq_ok {config : Option String} {context : Json}
    (h : ContextLoads config context) : loadContext config = .ok context := by
  cases h with
  | absent => rfl
  | text hread =>
    rw [loadContext_some, hread]
    rfl

section

variable {memory : Memory} {around : Surroundings σ} {a : Arguments} {host : σ}

/-- Behind the options and the context, memory decides whether formulas are evaluated. -/
lemma results_of_loaded {options : Options} {context : Json}
    (hoptions : OptionsLoad around.textOf a.config options)
    (hcontext : ContextLoads a.context context) :
    results memory around a host =
      (memory.reserve Machine.size options.poolCapacity).mapError .memory >>= fun _ =>
        ((a.engine around options).evalAll context host a.formulas).1.mapError .formula := by
  rw [results, loadOptions_eq_ok hoptions, loadContext_eq_ok hcontext]
  dsimp only [bind, Except.bind]
  rw [Engine.create_eq]
  cases memory.reserve Machine.size options.poolCapacity <;> rfl

/-- The results are those of all formulas when the options and the context load and there is
room. -/
lemma results_eq {options : Options} {context : Json}
    (hoptions : OptionsLoad around.textOf a.config options)
    (hcontext : ContextLoads a.context context) (hroom : HasRoom memory options) :
    results memory around a host =
      ((a.engine around options).evalAll context host a.formulas).1.mapError .formula := by
  rw [results_of_loaded hoptions hcontext, hasRoom_iff.mp hroom]
  rfl

/-- **Everything is in order and there is room, or there is a first failure.** -/
theorem answerable_or_firstFailure (memory : Memory) (around : Surroundings σ) (a : Arguments)
    (host : σ) :
    (∃ options context, Answerable around a host options context ∧ HasRoom memory options) ∨
      ∃ failure, FirstFailure memory around a host failure := by
  have hoptions : (∃ options, OptionsLoad around.textOf a.config options) ∨
      ∃ failure, FirstFailure memory around a host failure := by
    cases hconfig : a.config with
    | none => exact .inl ⟨_, .default⟩
    | some path =>
      cases htext : around.textOf path with
      | error fault => exact .inr ⟨_, .unreadable hconfig htext⟩
      | ok text =>
        cases hread : Options.read text with
        | error fault => exact .inr ⟨_, .options hconfig htext hread⟩
        | ok options => exact .inl ⟨options, .file htext hread⟩
  rcases hoptions with ⟨options, hoptions⟩ | hfailure
  case inr => exact .inr hfailure
  have hcontext : (∃ context, ContextLoads a.context context) ∨
      ∃ failure, FirstFailure memory around a host failure := by
    cases hgiven : a.context with
    | none => exact .inl ⟨_, .absent⟩
    | some text =>
      cases hread : Json.read text with
      | error fault => exact .inr ⟨_, .context hoptions hgiven hread⟩
      | ok context => exact .inl ⟨context, .text hread⟩
  rcases hcontext with ⟨context, hcontext⟩ | hfailure
  case inr => exact .inr hfailure
  cases hroom : memory.reserve Machine.size options.poolCapacity with
  | error fault => exact .inr ⟨_, .memory hoptions hcontext hroom⟩
  | ok _ =>
    replace hroom : HasRoom memory options := hasRoom_iff.mpr hroom
    have hfirst : (∀ text ∈ a.formulas,
        ∃ x, ((a.engine around options).answer text context host).1 = .ok x) ∨ _ :=
      all_ok_or_first_error host a.formulas
    rcases hfirst with hall | ⟨before, text, after, error, hsplit, hbefore, herror⟩
    · simp only [← alone_eq] at hall
      exact .inl ⟨options, context, ⟨hoptions, hcontext, hall⟩, hroom⟩
    · simp only [← alone_eq] at hbefore herror
      exact .inr ⟨_, .formula hoptions hcontext hroom hsplit hbefore herror⟩

/-- **The results are those of the formulas in turn** when everything is in order and there is
room. -/
lemma results_of_answerable {options : Options} {context : Json}
    (h : Answerable around a host options context) (hroom : HasRoom memory options) :
    ∃ xs host', InTurn (alone around a options context) host a.formulas xs host' ∧
      results memory around a host = .ok xs := by
  have hall := h.evaluated
  simp only [alone_eq] at hall
  obtain ⟨xs, host', hturn⟩ := exists_inTurn hall host
  obtain ⟨engine', hrun⟩ := evalAll_of_inTurn hturn
  refine ⟨xs, host', ?_, ?_⟩
  · rw [funext (alone_eq around a options context)]
    exact hturn
  · rw [results_eq h.configured h.loaded hroom, hrun]
    rfl

/-- **There are no results when there is a first failure**, which is the one reported. -/
lemma results_of_firstFailure {failure : Failure} (h : FirstFailure memory around a host failure) :
    results memory around a host = .error failure := by
  cases h with
  | unreadable hconfig htext =>
    rw [results, hconfig, loadOptions_some, htext]
    rfl
  | options hconfig htext hread =>
    rw [results, hconfig, loadOptions_some, htext]
    dsimp only
    rw [hread]
    rfl
  | context hoptions hgiven hread =>
    rw [results, loadOptions_eq_ok hoptions, hgiven, loadContext_some, hread]
    rfl
  | memory hoptions hcontext hrefused =>
    rw [results_of_loaded hoptions hcontext, hrefused]
    rfl
  | @formula options context before after text error hoptions hcontext hroom hsplit hbefore herror =>
    simp only [alone_eq] at hbefore herror
    obtain ⟨xs, host', hturn⟩ := exists_inTurn hbefore host
    have herror' : ((a.engine around options).answer text context host').1 = .error error :=
      ((a.engine around options).answer_verdict text context host host').eq_error herror
    obtain ⟨engine', hrun⟩ := evalAll_of_failure hturn (Prod.ext herror' rfl) after
    rw [results_eq hoptions hcontext hroom, hsplit, hrun]
    rfl

end

/-! ## What is answered -/

/-- Lines end with a line feed each, if there are any. -/
lemma lines_eq {texts : List String} (h : texts ≠ []) :
    Response.lines texts = String.join (texts.map (· ++ "\n")) := by
  rw [Response.lines]
  induction texts with
  | nil => exact absurd rfl h
  | cons text texts ih =>
    rw [List.map_cons, String.join_cons]
    cases texts with
    | nil => simp
    | cons next texts =>
      rw [String.intercalate_cons_cons, String.append_assoc, ih (List.cons_ne_nil next texts)]

/-- Formulas in turn have a result each. -/
lemma InTurn.length_eq {evaluate : String → StateM σ (Except EvalError Float)} {host host' : σ}
    {texts : List String} {xs : List Float} (h : InTurn evaluate host texts xs host') :
    xs.length = texts.length := by
  induction h with
  | nil => rfl
  | cons _ _ ih => rw [List.length_cons, List.length_cons, ih]

/-- Each result of formulas in turn is that of its formula, in some state of the host. -/
lemma InTurn.exists_of_mem_zip {evaluate : String → StateM σ (Except EvalError Float)}
    {host host' : σ} {texts : List String} {xs : List Float}
    (h : InTurn evaluate host texts xs host') {text : String} {x : Float}
    (hmem : (text, x) ∈ texts.zip xs) : ∃ before, (evaluate text before).1 = .ok x := by
  induction h with
  | nil => exact absurd hmem List.not_mem_nil
  | @cons host _ _ _ _ _ _ hfirst _ ih =>
    rcases List.mem_cons.mp hmem with hhere | hbehind
    · obtain ⟨rfl, rfl⟩ := Prod.mk.inj hhere
      exact ⟨host, congrArg Prod.fst hfirst⟩
    · exact ih hbehind

/-- **A formula that draws nothing has one value** under a clock that stands still, if it has any:
whenever it is evaluated alone, it gives this value. -/
lemma alone_of_drawsNothing {around : Surroundings σ} {a : Arguments} {options : Options}
    {context : Json} {time : Float} (htime : a.time = some time) {text : String} {x : Float}
    {host : σ} (hx : (alone around a options context text host).1 = .ok x) {h : σ}
    (hdraws : DrawsNothing around options context (Tick.frozen time (a.delta.getD 0.0)) text h)
    (h' : σ) : alone around a options context text h' = (.ok x, h') := by
  let tick := Tick.frozen time (a.delta.getD 0.0)
  let env : Env Json σ := ⟨context, documents, around.random, tick, options.maxDepth⟩
  have hclock : a.clock around.clock = Clock.fixed tick := by rw [Arguments.clock, htime]
  have halone (host : σ) : alone around a options context text host =
      ((Evaluator.blank.eval env text host).1, (Evaluator.blank.eval env text host).2.2) := by
    rw [alone_eq, Arguments.engine, hclock, Engine.answer_apply]
    rfl
  rw [DrawsNothing, Engine.eval_eq, Engine.answer_apply] at hdraws
  rw [halone] at hx ⊢
  rw [Evaluator.eval_of_draws_eq_nil documents_steady .blank .blank .blank hx hdraws h']

/-- No failure has the exit code of success. -/
lemma Failure.code_ne_zero (failure : Failure) : failure.code ≠ 0 := by
  cases failure with
  | memory fault => cases fault <;> exact Nat.succ_ne_zero _
  | _ => exact Nat.one_ne_zero

section

variable {memory : Memory} {around : Surroundings σ} {a : Arguments} {host : σ}

/-- The results are written when there are some. -/
lemma response_of_ok {xs : List Float} (hevaluate : a.listConstants = false)
    (h : results memory around a host = .ok xs) :
    Response.of around host (.evaluate a) memory =
      ⟨0, Response.lines (xs.map Number.plain.text), ""⟩ := by
  simp only [Response.of, hevaluate, h, Bool.false_eq_true, if_false]

/-- The message of a failure is written when there are none. -/
lemma response_of_error {failure : Failure} (hevaluate : a.listConstants = false)
    (h : results memory around a host = .error failure) :
    Response.of around host (.evaluate a) memory =
      ⟨failure.code, "", failure.message ++ "\n"⟩ := by
  simp only [Response.of, hevaluate, h, Bool.false_eq_true, if_false]

/-- **The results are written, one a line**, when everything is in order, there is room, and there
is a formula. -/
lemma response_of_answerable {options : Options} {context : Json}
    (hevaluate : a.listConstants = false) (hformulas : a.formulas ≠ [])
    (h : Answerable around a host options context) (hroom : HasRoom memory options) :
    ∃ xs host', Response.of around host (.evaluate a) memory = ⟨0, report xs, ""⟩ ∧
      InTurn (alone around a options context) host a.formulas xs host' := by
  obtain ⟨xs, host', hturn, hresults⟩ := results_of_answerable h hroom
  have hxs : xs.map Number.plain.text ≠ [] := by
    intro hnil
    have hlength := hturn.length_eq
    rw [List.map_eq_nil_iff.mp hnil] at hlength
    exact hformulas (List.length_eq_zero_iff.mp hlength.symm)
  refine ⟨xs, host', ?_, hturn⟩
  rw [response_of_ok hevaluate hresults, lines_eq hxs, List.map_map]
  rfl

end

/-- **A command line answers for all its formulas or for none.** Let it evaluate formulas, at least
one of them.

* Its exit code is zero exactly when everything is in order (the options and the context load, and
  each formula has a value when it is evaluated alone) and there is room for the machines that the
  options ask for.
* Then exactly the results are written, one a line, in the order of the formulas. They are those of
  the formulas evaluated alone, each in the state in which the one before it has left the host; and
  where the time is given, a formula that draws no random number has its result in every state.
* Otherwise there is a first failure. Its message is written to the standard error output, nothing
  to the standard output, and the exit code is that of the failure, which is one unless it is one of
  memory.
* The formula that fails is the last one to be evaluated: it leaves the host in the state in which
  the host is left.

**Proof sketch.** One engine for all formulas gives what engines of their own give, since nothing of
its history shows. Whether a formula has a value, and its error if it has none, does not depend on
the state of the host, so the first formula that fails alone is the first to fail in turn. -/
theorem all_or_nothing (memory : Memory) (around : Surroundings σ) (a : Arguments) (host : σ)
    (hevaluate : a.listConstants = false) (hformulas : a.formulas ≠ []) :
    let response := Response.of around host (.evaluate a) memory
    (response.code = 0 ↔
        ∃ options context, Answerable around a host options context ∧ HasRoom memory options) ∧
      (∀ options context, Answerable around a host options context → HasRoom memory options →
        ∃ xs host', response = ⟨0, report xs, ""⟩ ∧
          InTurn (alone around a options context) host a.formulas xs host' ∧
          xs.length = a.formulas.length ∧
          ∀ time, a.time = some time → ∀ text x, (text, x) ∈ a.formulas.zip xs → ∀ h,
            DrawsNothing around options context (Tick.frozen time (a.delta.getD 0.0)) text h →
            ∀ h', alone around a options context text h' = (.ok x, h')) ∧
      ((∃ options context, Answerable around a host options context ∧ HasRoom memory options) ∨
        ∃ failure, FirstFailure memory around a host failure) ∧
      (∀ failure, FirstFailure memory around a host failure →
        response = ⟨failure.code, "", failure.message ++ "\n"⟩ ∧
          (failure.code = 1 ∨ ∃ fault, failure = .memory fault)) ∧
      ∀ options context before text after xs host' error host'',
        OptionsLoad around.textOf a.config options → ContextLoads a.context context →
        a.formulas = before ++ text :: after →
        InTurn (alone around a options context) host before xs host' →
        alone around a options context text host' = (.error error, host'') →
        ((a.engine around options).evalAll context host a.formulas).2.2 = host'' := by
  intro response
  have hfailure (failure : Failure) (h : FirstFailure memory around a host failure) :
      response = ⟨failure.code, "", failure.message ++ "\n"⟩ :=
    response_of_error hevaluate (results_of_firstFailure h)
  refine ⟨⟨fun hcode => ?_, ?_⟩, ?_, answerable_or_firstFailure memory around a host,
    fun failure h => ⟨hfailure failure h, ?_⟩, ?_⟩
  · rcases answerable_or_firstFailure memory around a host with h | ⟨failure, h⟩
    · exact h
    · rw [hfailure failure h] at hcode
      exact absurd hcode failure.code_ne_zero
  · rintro ⟨options, context, h, hroom⟩
    obtain ⟨xs, host', hresponse, -⟩ := response_of_answerable hevaluate hformulas h hroom
    exact congrArg Response.code hresponse
  · intro options context h hroom
    obtain ⟨xs, host', hresponse, hturn⟩ := response_of_answerable hevaluate hformulas h hroom
    refine ⟨xs, host', hresponse, hturn, hturn.length_eq, ?_⟩
    intro time htime text x hmem state hdraws state'
    obtain ⟨before, hx⟩ := hturn.exists_of_mem_zip hmem
    exact alone_of_drawsNothing htime hx hdraws state'
  · cases failure with
    | memory fault => exact .inr ⟨fault, rfl⟩
    | _ => exact .inl rfl
  · intro options context before text after xs host' error host'' _ _ hsplit hturn herror
    rw [funext (alone_eq around a options context)] at hturn
    rw [alone_eq] at herror
    obtain ⟨engine', hrun⟩ := evalAll_of_failure hturn herror after
    rw [hsplit, hrun]

/-- On three formulas the second of which has an unmatched parenthesis. -/
theorem all_or_nothing_unmatched :
    let around : Surroundings Generator :=
      ⟨fun _ => .error .missing, Clock.fixed .zero, .generator⟩
    let a : Arguments := ⟨["$", "$ )", "rand($)"], some "[]", none, some 0.0, none, false⟩
    a.listConstants = false ∧ a.formulas ≠ [] ∧
      Response.of around 5 (.evaluate a) = ⟨1, "", "parse error at 2: unmatched ')'\n"⟩ ∧
      ¬ ∃ options context, Answerable around a 5 options context ∧
        HasRoom .addressable options := by
  intro around a
  have hresponse : Response.of around 5 (.evaluate a) =
      ⟨1, "", "parse error at 2: unmatched ')'\n"⟩ := rfl
  have hcode := (all_or_nothing .addressable around a 5 rfl (List.cons_ne_nil _ _)).1
  rw [hresponse] at hcode
  exact ⟨rfl, List.cons_ne_nil _ _, hresponse, fun h => absurd (hcode.mpr h) Nat.one_ne_zero⟩

/-- **A command line that is in order may end without an answer.** The options ask for as many
machines as a word can count. They load, and the sum has a value; but there is no room for the
machines, so the program ends with the exit code of a panic and writes no result. -/
theorem all_or_nothing_no_room :
    let around : Surroundings Generator :=
      ⟨fun _ => .ok "\x7b\"pool_capacity\": 18446744073709551615\x7d", Clock.fixed .zero,
        .generator⟩
    let a : Arguments := ⟨["1+1"], none, some "c.json", some 0.0, none, false⟩
    Answerable around a 5 ⟨128, 18446744073709551615⟩ .null ∧
      (alone around a ⟨128, 18446744073709551615⟩ .null "1+1" 5).1 = .ok 2.0 ∧
      Response.of around 5 (.evaluate a) = ⟨101, "", "capacity overflow\n"⟩ := by
  intro around a
  have hread : Options.read "\x7b\"pool_capacity\": 18446744073709551615\x7d" =
      .ok ⟨128, 18446744073709551615⟩ := rfl
  have hvalue : (alone around a ⟨128, 18446744073709551615⟩ .null "1+1" 5).1 = .ok 2.0 := by
    decide +kernel
  have hroom : Memory.addressable.reserve Machine.size 18446744073709551615 = .error .tooLarge := by
    decide
  have hfailure : FirstFailure .addressable around a 5 (.memory .tooLarge) :=
    .memory (.file rfl hread) .absent hroom
  refine ⟨⟨.file rfl hread, .absent, List.forall_mem_singleton.mpr ⟨_, hvalue⟩⟩, hvalue, ?_⟩
  exact response_of_error rfl (results_of_firstFailure hfailure)

end CommandLine

end Formula
