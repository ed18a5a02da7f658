import Formula.Constant
import Formula.Path
import Formula.Scanner
import Formula.Text.LetterCase

set_option relaxedAutoImplicit false
set_option autoImplicit false

/-!
# References

What may follow the mark `$`: nothing, for the context itself; a name, for a constant; a point and
a path, for a member of the context; or a type name in parentheses, a point and a path, for a
member of a component. What is absent reads as zero; only a malformed text is an error.

## Main definitions

* `Formula.Scanner.reference` — reads a reference behind its mark.
* `Formula.Scanner.memberPath` — reads a path and follows it.
-/

namespace Formula.Scanner

variable {ω σ : Type}

/-- The characters that may stand behind a mark with nothing else to it. -/
def endsOperand (c : Char) : Bool :=
  Text.isBlank c || c ∈ [')', ',', '+', '-', '*', '/', '%', '^', '=', '!', '<', '>', '|', '&']

/-- The number that the context stands for. -/
def wholeContext (env : Env ω σ) : Scanner σ Float :=
  onHost (env.model.number env.context)

/-- Reads the name of a constant, which may start with a minus sign. An unknown name is zero. -/
def namedConstant (env : Env ω σ) : Scanner σ Float := do
  let negative ← accept '-'
  let name := Text.lowerName (← takeRun Text.isWordChar)
  let name := String.ofList (if negative then '-' :: name else name)
  return (constant? name env.tick).getD 0.0

/-- Reads a path and follows it from a target, which may be absent. The whole path is read, and a
malformed one is an error wherever the lookup ends. -/
def memberPath (env : Env ω σ) (target : Option ω) : Scanner σ Float := do
  let path := Path.scan (← cursor)
  move fun _ => path.stop
  let found ← onHost (env.model.follow target path.names)
  if path.wellFormed then
    match found with
    | some object => onHost (env.model.number object)
    | none => return 0.0
  else fail .missingMember

/-- Reads a type name behind its parenthesis, and the path behind it. -/
def componentPath (env : Env ω σ) : Scanner σ Float := do
  let typeName ← takeRun fun c => c ≠ ')'
  if ← accept ')' then
    if ← accept '.' then
      let name := String.ofList (Text.trimBlanks typeName)
      let component ← onHost (env.model.component env.context name)
      memberPath env component
    else fail (.missingPath (String.ofList typeName))
  else fail .openTypeName

/-- **Reads a reference** behind its mark. A minus sign belongs to the name of a constant when a
letter of ASCII follows it, and is an operator behind the context otherwise. -/
def reference (env : Env ω σ) : Scanner σ Float := do
  match ← current with
  | none => wholeContext env
  | some c =>
    if c = '-' ∧ (← next).any Char.isAlpha then namedConstant env
    else if endsOperand c then wholeContext env
    else if c = '.' then
      advance
      memberPath env (some env.context)
    else if c = '(' then
      advance
      componentPath env
    else if Text.isWordChar c then namedConstant env
    else fail (.notReference c)

end Formula.Scanner
