import Formula.Number.Decimal

set_option relaxedAutoImplicit false
set_option autoImplicit false

/-!
# What a command line asks for

The words of a command line are read from left to right; the first word that is wrong, or that asks
for the version or for help, decides. Options and formulas may be mixed. The value of an option
stands behind an equals sign or in the next word, which then must not look like an option itself;
`--` ends the options.

## Main definitions

* `Formula.CommandLine.Arguments` — what an evaluation is asked with.
* `Formula.CommandLine.Request` — what is asked for.
* `Formula.CommandLine.Request.ofWords` — reads a command line.
-/

namespace Formula.CommandLine

/-- **What an evaluation is asked with.** -/
structure Arguments where
  /-- The texts to evaluate. -/
  formulas : List String
  /-- The context, as JSON. -/
  context : Option String
  /-- The path of the file with options. -/
  config : Option String
  /-- The time at which the clock stands still. -/
  time : Option Float
  /-- The length of a frame of that clock. -/
  delta : Option Float
  /-- Whether only the names of the constants are asked for. -/
  listConstants : Bool

/-- **What is asked for.** -/
inductive Request where
  /-- To evaluate texts or list the constants. -/
  | evaluate (arguments : Arguments)
  /-- The version of the program. -/
  | version
  /-- How the program is used. -/
  | help
  /-- Nothing that makes sense. -/
  | misuse

/-- The options that have a value. -/
inductive Setting where
  | context
  | config
  | time
  | delta
deriving Repr, DecidableEq

/-- The setting with a name. -/
def Setting.named? (name : String) : Option Setting :=
  if name = "context" then some .context
  else if name = "config" then some .config
  else if name = "time" then some .time
  else if name = "delta" then some .delta
  else none

namespace Arguments

/-- Arguments without any word read. -/
def empty : Arguments := ⟨[], none, none, none, none, false⟩

/-- Takes the value of a setting: each only once, numbers must be decimals, and the path must not
be empty. -/
def set? (a : Arguments) (value : String) : Setting → Option Arguments
  | .context => if a.context.isSome then none else some { a with context := some value }
  | .config =>
    if a.config.isSome ∨ value.isEmpty then none else some { a with config := some value }
  | .time =>
    if a.time.isSome then none
    else (Number.read? value.toList).map fun x => { a with time := some x }
  | .delta =>
    if a.delta.isSome then none
    else (Number.read? value.toList).map fun x => { a with delta := some x }

/-- Takes more formulas. -/
def addFormulas (a : Arguments) (texts : List String) : Arguments :=
  { a with formulas := a.formulas ++ texts }

/-- The request of a command line that has been read. Without a formula there is nothing to
evaluate. -/
def finish (a : Arguments) : Request :=
  if a.formulas.isEmpty && !a.listConstants then .misuse else .evaluate a

end Arguments

/-- **The kinds of words** on a command line. -/
inductive Word where
  /-- A word that is no option. -/
  | plain
  /-- The end of the options. -/
  | endOfOptions
  /-- An option by name, with the value behind its equals sign if there is one. -/
  | long (name : String) (value : Option String)
  /-- Options by letter. -/
  | short (letters : List Char)
deriving Repr, DecidableEq

/-- The kind of a word. -/
def Word.classify (word : String) : Word :=
  match word.toList with
  | ['-', '-'] => endOfOptions
  | '-' :: '-' :: cs =>
    long (String.ofList (cs.takeWhile (· ≠ '='))) <|
      match cs.dropWhile (· ≠ '=') with
      | [] => none
      | _ :: value => some (String.ofList value)
  | ['-'] => plain
  | '-' :: letters => short letters
  | _ => plain

namespace Request

/-- What options by letter decide: none when there is more to read. -/
def ofLetters : List Char → Option Request
  | [] => none
  | 'v' :: letters => ofLetters letters
  | 'V' :: _ => some version
  | 'h' :: _ => some help
  | _ => some misuse

/-- Reads the words behind the arguments read so far. -/
def ofWordsFrom (a : Arguments) : List String → Request
  | [] => a.finish
  | word :: words =>
    match Word.classify word with
    | .plain => ofWordsFrom (a.addFormulas [word]) words
    | .endOfOptions => (a.addFormulas words).finish
    | .short letters =>
      match ofLetters letters with
      | some request => request
      | none => ofWordsFrom a words
    | .long name value =>
      match Setting.named? name, value with
      | some setting, some text =>
        match a.set? text setting with
        | some a => ofWordsFrom a words
        | none => misuse
      | some setting, none =>
        match words with
        | [] => misuse
        | text :: words =>
          if Word.classify text = .plain then
            match a.set? text setting with
            | some a => ofWordsFrom a words
            | none => misuse
          else misuse
      | none, some _ => misuse
      | none, none =>
        if name = "version" then version
        else if name = "help" then help
        else if name = "verbose" then ofWordsFrom a words
        else if name = "list-constants" ∧ a.listConstants = false then
          ofWordsFrom { a with listConstants := true } words
        else misuse

/-- **Reads a command line.** -/
def ofWords (words : List String) : Request :=
  ofWordsFrom Arguments.empty words

end Request

end Formula.CommandLine
