import Formula.CommandLine.Request
import Formula.Engine
import Formula.Host.Documents

set_option relaxedAutoImplicit false
set_option autoImplicit false

/-!
# What the command line answers

A command line evaluates all its formulas or none: the results are written only when the options,
the context and every formula are in order, and when there is room for the machines that the options
ask for. Otherwise the first failure is reported, and formulas behind it are not evaluated.

## Main definitions

* `Formula.CommandLine.Failure` — why there are no results.
* `Formula.CommandLine.results` — the results of all formulas.
* `Formula.CommandLine.Response.of` — the answer to a request.
-/

namespace Formula.CommandLine

/-- **Why a file cannot be read.** -/
inductive FileFault where
  | missing
  | notDirectory
  | directory
  | other (wording : String)
deriving Repr, DecidableEq

/-- The wording of a fault of a file. -/
def FileFault.message : FileFault → String
  | missing => "No such file or directory (os error 2)"
  | notDirectory => "Not a directory (os error 20)"
  | directory => "Is a directory (os error 21)"
  | other wording => wording

/-- **Why there are no results.** -/
inductive Failure where
  /-- The file with options cannot be read. -/
  | unreadable (path : String) (fault : FileFault)
  /-- Its text sets no options. -/
  | options (fault : Options.Fault)
  /-- The context is no JSON. -/
  | context (fault : Json.Fault)
  /-- There is no room for the machines that are to be kept. -/
  | memory (fault : Memory.Fault)
  /-- A formula cannot be evaluated. -/
  | formula (error : EvalError)

/-- The wording of a failure. -/
def Failure.message : Failure → String
  | unreadable path fault => "Cannot read " ++ path ++ ": " ++ fault.message
  | options fault => fault.message
  | context fault => "Invalid context JSON: " ++ fault.message
  | memory fault => fault.message
  | formula error => error.message

/-- The exit code for a failure: one if it is handled, and that of the fault if it is one of
memory. -/
def Failure.code : Failure → Nat
  | memory fault => fault.code
  | _ => 1

/-- **What a command line runs on**: how files are read, and the host's clock and random
numbers. -/
structure Surroundings (σ : Type) where
  /-- The text of the file with a path. -/
  textOf : String → Except FileFault String
  /-- The clock, when none is asked for. -/
  clock : Clock σ
  /-- Where random numbers come from. -/
  random : RandomSource σ

/-- The options that are asked for. -/
def loadOptions (textOf : String → Except FileFault String) :
    Option String → Except Failure Options
  | none => .ok Options.default
  | some path =>
    match textOf path with
    | .error fault => .error (.unreadable path fault)
    | .ok text => (Options.read text).mapError .options

/-- The context that is asked for. -/
def loadContext : Option String → Except Failure Json
  | none => .ok .null
  | some text => (Json.read text).mapError .context

/-- The clock that is asked for: one that stands still, or the host's. -/
def Arguments.clock {σ : Type} (a : Arguments) (host : Clock σ) : Clock σ :=
  match a.time with
  | some time => Clock.fixed (Tick.frozen time (a.delta.getD 0.0))
  | none => host

/-- **The results of all formulas**, in order, or the first failure: that of the options, of the
context, of memory, or of a formula. -/
def results {σ : Type} (memory : Memory) (around : Surroundings σ) (a : Arguments) (host : σ) :
    Except Failure (List Float) := do
  let options ← loadOptions around.textOf a.config
  let context ← loadContext a.context
  let engine ← (Engine.create memory options documents (a.clock around.clock)
    around.random).mapError .memory
  (engine.evalAll context host a.formulas).1.mapError .formula

/-- **What is answered**: an exit code and two texts. -/
structure Response where
  /-- The exit code: that of the failure if there is one, and two for misuse. -/
  code : Nat
  /-- What is written to the standard output. -/
  output : String
  /-- What is written to the standard error output. -/
  errors : String
deriving Repr, DecidableEq

namespace Response

/-- Lines of text. -/
def lines (texts : List String) : String :=
  "\n".intercalate texts ++ "\n"

/-- The names of the constants in ascending order. -/
def sortedConstants : List String :=
  constantNames.mergeSort fun a b => decide (a ≤ b)

/-- How the program is used. -/
def usage : String :=
  "Usage: texpr [OPTIONS] <EXPRS>...\n"

/-- **The answer to a request.** -/
def of {σ : Type} (around : Surroundings σ) (host : σ) (request : Request)
    (memory : Memory := .addressable) : Response :=
  match request with
  | .version => ⟨0, "tween-expr 0.1.0\n", ""⟩
  | .help => ⟨0, usage, ""⟩
  | .misuse => ⟨2, "", usage⟩
  | .evaluate a =>
    if a.listConstants then ⟨0, lines sortedConstants, ""⟩
    else match results memory around a host with
      | .ok xs => ⟨0, lines (xs.map Number.plain.text), ""⟩
      | .error failure => ⟨failure.code, "", failure.message ++ "\n"⟩

end Response

end Formula.CommandLine
