import Formula.Evaluation
import Formula.Host.Documents
import Formula.Host.Generator
import Mathlib

set_option relaxedAutoImplicit false
set_option autoImplicit false

/-!
# Running scanners

What a scanner does to a state, one equation for each of its parts. A state is described by what
lies ahead of its cursor, and two states that differ only in the blanks ahead are told apart by
nothing that reads an operand or the rest of a chain.

## Main definitions

* `Formula.Running.facing` — a state by the text ahead.
* `Formula.Running.settle` — a state behind the blanks ahead.
* `Formula.Builtin.take` — what an argument makes of a call: whether it is the last one, whether
  another one must follow, or whether there is a wrong number of them.
* `Formula.Scanner.furtherArguments` — the arguments of a call behind the first one.

## Main results

* `Formula.Scanner.bind_apply`, `Formula.Scanner.bind_eq_ok` — a sequence of two scanners.
* `Formula.Scanner.operandWith_settle`, `Formula.Scanner.chainRest_settle` — blanks ahead do not
  matter.
* `Formula.Scanner.operandWith_cons`, `Formula.Scanner.chainRest_cons` — the first character ahead
  decides what is read.
* `Formula.Scanner.arguments_eq`, `Formula.Scanner.arguments_eq_ok` — the arguments of a call are the
  first one and what is left of them.
-/

namespace Formula

variable {ω σ α β : Type}

/-- The position behind a text is the one behind its tail. -/
lemma position_cons (p : Nat) (c : Char) (cs : List Char) :
    p + (c :: cs).length = p + 1 + cs.length := by
  rw [List.length_cons]
  omega

namespace Running

/-- **The state in front of a text**: the position, the text ahead, the number of open
parentheses, and the host's state. -/
abbrev facing (position : Nat) (rest : List Char) (depth : Nat) (host : σ) : Running σ :=
  ⟨⟨⟨position, rest⟩, depth⟩, host⟩

/-- **The state behind the blanks** that lie ahead. -/
def settle (s : Running σ) : Running σ :=
  { s with cursor := s.cursor.skipWhile Text.isBlank }

/-- Settling in front of a text moves over its leading blanks. -/
lemma settle_facing (p : Nat) (cs : List Char) (d : Nat) (h : σ) :
    (facing p cs d h).settle =
      facing (p + (cs.takeWhile Text.isBlank).length) (cs.dropWhile Text.isBlank) d h := rfl

/-- Settling moves over a blank. -/
lemma settle_facing_cons {c : Char} (hc : Text.isBlank c = true) (p : Nat) (cs : List Char)
    (d : Nat) (h : σ) : (facing p (c :: cs) d h).settle = (facing (p + 1) cs d h).settle := by
  simp only [settle_facing, List.takeWhile_cons, List.dropWhile_cons, hc, if_true]
  rw [position_cons]

/-- Settling moves nowhere in front of a text that does not start with a blank. -/
lemma settle_facing_of_head {cs : List Char} (hcs : ∀ c ∈ cs.head?, Text.isBlank c = false)
    (p : Nat) (d : Nat) (h : σ) : (facing p cs d h).settle = facing p cs d h := by
  cases cs with
  | nil => rfl
  | cons c cs =>
    have hc : Text.isBlank c = false := hcs c rfl
    simp [settle_facing, hc]

/-- No blank lies ahead of a settled state. -/
lemma head_settle (s : Running σ) :
    ∀ c ∈ s.settle.cursor.rest.head?, Text.isBlank c = false := by
  intro c hc
  have h := List.head?_dropWhile_not Text.isBlank s.cursor.rest
  have hc' : (s.cursor.rest.dropWhile Text.isBlank).head? = some c := hc
  rw [hc'] at h
  simpa using h

/-- Settling twice is settling once. -/
@[simp] lemma settle_settle (s : Running σ) : s.settle.settle = s.settle :=
  settle_facing_of_head (head_settle s) _ _ _

/-- A settled state has no more text ahead. -/
lemma length_rest_settle_le (s : Running σ) :
    s.settle.cursor.rest.length ≤ s.cursor.rest.length :=
  (List.dropWhile_sublist Text.isBlank).length_le

end Running

/-! ## Errors that are no refusals for a depth -/

namespace EvalError

/-- A malformed text is not refused for its depth. -/
lemma malformed_ne_tooDeep (p : Nat) (v : Violation) (limit : Nat) :
    malformed p v ≠ tooDeep limit := by
  intro h
  cases h

/-- A wrong number of arguments is no refusal for a depth. -/
lemma argumentCount_ne_tooDeep (f : Builtin) (limit : Nat) : argumentCount f ≠ tooDeep limit := by
  intro h
  cases h

/-- An unknown function is no refusal for a depth. -/
lemma unknownFunction_ne_tooDeep (name : String) (limit : Nat) :
    unknownFunction name ≠ tooDeep limit := by
  intro h
  cases h

end EvalError

namespace Scanner

/-! ## Sequences -/

/-- A sequence goes on with the value of its first part, or stops with its error. -/
lemma bind_apply (m : Scanner σ α) (f : α → Scanner σ β) (s : Running σ) :
    (m >>= f) s = match m s with | .ok a t => f a t | .error e t => .error e t := by
  show EStateM.bind m f s = _
  unfold EStateM.bind
  cases m s <;> rfl

/-- A sequence gives a value exactly when both of its parts do. -/
lemma bind_eq_ok {m : Scanner σ α} {f : α → Scanner σ β} {s t : Running σ} {b : β} :
    (m >>= f) s = .ok b t ↔ ∃ a u, m s = .ok a u ∧ f a u = .ok b t := by
  rw [bind_apply]
  cases m s <;> simp

/-- A sequence whose first part gives a value goes on from there. -/
lemma bind_of_ok {m : Scanner σ α} {s t : Running σ} {a : α} (h : m s = .ok a t)
    (f : α → Scanner σ β) : (m >>= f) s = f a t := by
  rw [bind_apply, h]

/-- A sequence whose first part stops with an error stops there. -/
lemma bind_of_error {m : Scanner σ α} {s t : Running σ} {e : EvalError} (h : m s = .error e t)
    (f : α → Scanner σ β) : (m >>= f) s = .error e t := by
  rw [bind_apply, h]

/-- A value gives itself and moves nowhere. -/
lemma pure_eq_ok {a b : α} {s t : Running σ} :
    (pure a : Scanner σ α) s = .ok b t ↔ a = b ∧ s = t := by
  show EStateM.Result.ok a s = .ok b t ↔ _
  simp

/-! ## Single steps -/

/-- Taking a run gives the run and moves over it. -/
lemma takeRun_apply (p : Char → Bool) (s : Running σ) :
    takeRun p s = .ok (s.cursor.run p) { s with cursor := s.cursor.skipWhile p } := rfl

/-- A character is accepted when it is the one under the cursor. -/
lemma accept_apply (c : Char) (s : Running σ) :
    accept c s = if s.cursor.current = some c then .ok true { s with cursor := s.cursor.advance }
      else .ok false s := by
  simp only [accept, bind_apply]
  show (if _ then _ else _ : Scanner σ Bool) s = _
  split <;> rfl

/-- A character that is accepted is moved over. -/
lemma accept_cons (c : Char) (p : Nat) (cs : List Char) (d : Nat) (h : σ) :
    accept c (.facing p (c :: cs) d h) = .ok true (.facing (p + 1) cs d h) := by
  rw [accept_apply]
  exact if_pos rfl

/-- A character that is not there is not accepted. -/
lemma accept_of_head {c : Char} {cs : List Char} (hcs : ∀ x ∈ cs.head?, x ≠ c) (p d : Nat)
    (h : σ) : accept c (.facing p cs d h) = .ok false (.facing p cs d h) := by
  have hcurrent : ¬ Cursor.current ⟨p, cs⟩ = some c := fun hc => hcs c hc rfl
  rw [accept_apply]
  exact if_neg hcurrent

/-- What is accepted lies ahead. -/
lemma rest_of_accept {c : Char} {s t : Running σ} {b : Bool} (hrun : accept c s = .ok b t) :
    s.cursor.rest = (if b then [c] else []) ++ t.cursor.rest ∧ t.depth = s.depth ∧
      t.host = s.host := by
  rw [accept_apply] at hrun
  split_ifs at hrun with hc
  · obtain ⟨rfl, rfl⟩ : true = b ∧ _ = t := by simpa using hrun
    obtain ⟨tail, hrest⟩ := List.head?_eq_some_iff.mp hc
    refine ⟨?_, rfl, rfl⟩
    show s.cursor.rest = [c] ++ s.cursor.rest.drop 1
    rw [hrest, List.drop_one, List.tail_cons, List.singleton_append]
  · obtain ⟨rfl, rfl⟩ : false = b ∧ s = t := by simpa using hrun
    exact ⟨rfl, rfl, rfl⟩

/-- A call on the host moves nowhere. -/
lemma onHost_apply (call : StateM σ α) (s : Running σ) :
    onHost call s = .ok (call s.host).1 { s with host := (call s.host).2 } := rfl

/-- Reading a literal stops where its scan stops. -/
lemma number_apply (s : Running σ) :
    number s = match Literal.scan s.cursor with
      | .done literal stop => .ok literal.toFloat { s with cursor := stop }
      | .refused violation stop =>
        .error (.malformed stop.position violation) { s with cursor := stop } := by
  show (match Literal.scan s.cursor with
    | .done literal stop => move (fun _ => stop) >>= fun _ => pure literal.toFloat
    | .refused violation stop => move (fun _ => stop) >>= fun _ => fail violation :
    Scanner σ Float) s = _
  cases Literal.scan s.cursor <;> rfl

/-- Reading an operator moves over its width. -/
lemma operator_apply (c : Char) (s : Running σ) :
    operator c s = match Operator.read? c s.cursor.next with
      | some (op, width) => .ok op { s with cursor := s.cursor.advanceBy width }
      | none => .error (.malformed s.cursor.position (.notOperator c)) s := by
  show (match Operator.read? c s.cursor.next with
    | some (op, width) => move (Cursor.advanceBy width) >>= fun _ => pure op
    | none => fail (.notOperator c) : Scanner σ Operator) s = _
  rcases Operator.read? c s.cursor.next with _ | ⟨op, width⟩ <;> rfl

/-- A path is scanned as a whole and followed from where its scan stops. -/
lemma memberPath_apply (env : Env ω σ) (target : Option ω) (s : Running σ) :
    memberPath env target s =
      (onHost (env.model.follow target (Path.scan s.cursor).names) >>= fun found =>
        if (Path.scan s.cursor).wellFormed then
          match found with
          | some object => onHost (env.model.number object)
          | none => pure 0.0
        else fail .missingMember) { s with cursor := (Path.scan s.cursor).stop } := rfl

/-- A closing parenthesis is an error when none is open. -/
lemma closeParen_apply (s : Running σ) :
    closeParen s =
      if s.depth = 0 then .error (.malformed s.cursor.position .unmatchedClose) s
      else .ok () { s with depth := s.depth - 1, cursor := s.cursor.advance } := by
  simp only [closeParen, bind_apply]
  show (if _ then _ else _ : Scanner σ Unit) s = _
  split <;> rfl

/-! ## The first character ahead -/

section

variable (env : Env ω σ) (inner : Option (Scanner σ Float)) (one : Scanner σ Float)

/-- An operand is read behind the blanks ahead. -/
lemma operandWith_settle (s : Running σ) :
    operandWith env inner s.settle = operandWith env inner s := by
  show operandWith env inner s.settle = _
  unfold operandWith
  have h : (skipBlanks : Scanner σ Unit) s.settle = .ok () s.settle.settle := rfl
  rw [Running.settle_settle] at h
  rw [bind_of_ok h, bind_of_ok (show (skipBlanks : Scanner σ Unit) s = .ok () s.settle from rfl)]

/-- No operand is read at the end of a text. -/
lemma operandWith_nil (p d : Nat) (h : σ) :
    operandWith env inner (.facing p [] d h) =
      .error (.malformed p .missingOperand) (.facing p [] d h) := rfl

/-- **The first character of an operand** decides what kind of operand it is. -/
lemma operandWith_cons {c : Char} (hc : Text.isBlank c = false) (p : Nat) (cs : List Char)
    (d : Nat) (h : σ) :
    operandWith env inner (.facing p (c :: cs) d h) =
      (if c.isDigit then number
      else if c.isAlpha then call env inner
      else if c = '$' then advance >>= fun _ => reference env
      else if c = '(' then
        advance >>= fun _ => openParen >>= fun _ =>
          nested env inner (fun one => chain one .group) >>= fun r => pure r.1
      else if c = '+' then advance >>= fun _ => nested env inner id
      else if c = '-' then advance >>= fun _ => nested env inner id >>= fun x => pure (-x)
      else if c = ')' then pure 0.0
      else fail (.unexpected c)) (.facing p (c :: cs) d h) := by
  have hs : (skipBlanks : Scanner σ Unit) (.facing p (c :: cs) d h) =
      .ok () (.facing p (c :: cs) d h) := by
    show EStateM.Result.ok () (Running.settle (.facing p (c :: cs) d h)) = _
    rw [Running.settle_facing_of_head (by simpa using hc)]
  unfold operandWith
  rw [bind_of_ok hs]
  rfl

/-- The rest of a chain is read behind the blanks ahead. -/
lemma chainRest_settle (scope : Scope) (n : Nat) (r : Float) (s : Running σ) :
    chainRest one scope (n + 1) r s.settle = chainRest one scope (n + 1) r s := by
  have h : (skipBlanks : Scanner σ Unit) s.settle = .ok () s.settle.settle := rfl
  rw [Running.settle_settle] at h
  simp only [chainRest]
  rw [bind_of_ok h, bind_of_ok (show (skipBlanks : Scanner σ Unit) s = .ok () s.settle from rfl)]

/-- At the end of a text nothing is left of a chain. -/
lemma chainRest_nil (scope : Scope) (n : Nat) (r : Float) (p d : Nat) (h : σ) :
    chainRest one scope n r (.facing p [] d h) = endOfText scope r (.facing p [] d h) := by
  cases n <;> rfl

/-- **The first character behind an operand** ends the chain or starts an operator. -/
lemma chainRest_cons {c : Char} (hc : Text.isBlank c = false) (scope : Scope) (n : Nat)
    (r : Float) (p : Nat) (cs : List Char) (d : Nat) (h : σ) :
    chainRest one scope (n + 1) r (.facing p (c :: cs) d h) =
      (if c = ')' then closeParen >>= fun _ => pure (r, .close)
      else if c = ',' ∧ scope = .argument then advance >>= fun _ => pure (r, .comma)
      else operator c >>= fun op => one >>= fun right =>
        chainRest one scope n (op.apply r right)) (.facing p (c :: cs) d h) := by
  have hs : (skipBlanks : Scanner σ Unit) (.facing p (c :: cs) d h) =
      .ok () (.facing p (c :: cs) d h) := by
    show EStateM.Result.ok () (Running.settle (.facing p (c :: cs) d h)) = _
    rw [Running.settle_facing_of_head (by simpa using hc)]
  simp only [chainRest]
  rw [bind_of_ok hs]
  rfl

end

end Scanner

/-! ## The arguments of calls -/

/-- **What an argument makes of a call.** -/
inductive Taken where
  /-- The arguments are complete. -/
  | complete (args : Arguments)
  /-- Another argument must follow. -/
  | more
  /-- There are too few or too many of them. -/
  | wrong

/-- **What an argument makes of a call** of a function, given the argument before it; the flag tells
that it is the last one. -/
def Builtin.take (f : Builtin) : Option Float → Float → Bool → Taken
  | none, x, last =>
    match f.arity, last with
    | .one, true => .complete (.one x)
    | .one, false => .wrong
    | .two, true => .wrong
    | .oneOrTwo, true => .complete (.one x)
    | _, false => .more
  | some first, x, true => .complete (.two first x)
  | some _, _, false => .wrong

section

variable {f : Builtin}

/-- One argument is complete for a function that does not need two. -/
lemma Builtin.take_last (hf : f.arity ≠ .two) (x : Float) :
    f.take none x true = .complete (.one x) := by
  cases ha : f.arity with
  | two => exact absurd ha hf
  | one | oneOrTwo => simp only [take, ha]

/-- One argument is too few for a function that needs two. -/
lemma Builtin.take_close (hf : f.arity = .two) (x : Float) : f.take none x true = .wrong := by
  simp only [take, hf]

/-- A second argument must follow behind a comma for a function that takes two. -/
lemma Builtin.take_more (hf : f.arity ≠ .one) (x : Float) : f.take none x false = .more := by
  cases ha : f.arity with
  | one => exact absurd ha hf
  | two | oneOrTwo => simp only [take, ha]

/-- A second argument is too many for a function that takes one. -/
lemma Builtin.take_comma (hf : f.arity = .one) (x : Float) : f.take none x false = .wrong := by
  simp only [take, hf]

end

/-- Arguments are complete only behind the last one. -/
lemma Builtin.last_of_complete {f : Builtin} {seen : Option Float} {x : Float} {last : Bool}
    {args : Arguments} (h : f.take seen x last = .complete args) : last = true := by
  cases last with
  | true => rfl
  | false =>
    cases seen with
    | none => rcases ha : f.arity <;> simp only [take, ha] at h <;> cases h
    | some first => cases h

/-- Another argument follows only behind one that is not the last one. -/
lemma Builtin.last_of_more {f : Builtin} {seen : Option Float} {x : Float} {last : Bool}
    (h : f.take seen x last = .more) : last = false := by
  cases last with
  | false => rfl
  | true =>
    cases seen with
    | none => rcases ha : f.arity <;> simp only [take, ha] at h <;> cases h
    | some first => cases h

namespace Scanner

variable (f : Builtin) (one : Scanner σ Float)

/-- Reads the second argument of a call behind a given one. It must be the last. -/
def secondArgument (x : Float) : Scanner σ Arguments :=
  argument one >>= fun r => if r.2 then pure (.two x r.1) else throw (.argumentCount f)

/-- **Reads what is left of the arguments** of a call behind the first one, which may be the last. -/
def furtherArguments (first : Float × Bool) : Scanner σ Arguments :=
  match f.take none first.1 first.2 with
  | .complete args => pure args
  | .more => secondArgument f one first.1
  | .wrong => throw (.argumentCount f)

/-- **The arguments of a call are the first one and what is left** of them. -/
lemma arguments_eq : arguments f one = argument one >>= furtherArguments f one := by
  refine congrArg (argument one >>= ·) (funext fun r => ?_)
  obtain ⟨x, last⟩ := r
  unfold furtherArguments Builtin.take
  cases f.arity <;> cases last <;> rfl

/-- An argument is a chain, and it is the last one if the chain ends with the call. -/
lemma argument_bind (g : Float × Bool → Scanner σ β) :
    argument one >>= g = chain one .argument >>= fun p => g (p.1, p.2 == .close) := by
  rw [argument, bind_assoc]
  rfl

variable {f one}

/-- A second argument that is read is the last one. -/
lemma secondArgument_eq_ok {x : Float} {s t : Running σ} {args : Arguments}
    (hrun : secondArgument f one x s = .ok args t) :
    ∃ y, args = .two x y ∧ argument one s = .ok (y, true) t := by
  obtain ⟨⟨y, last⟩, u, hy, hrun⟩ := bind_eq_ok.mp hrun
  cases last with
  | false => cases hrun
  | true =>
    obtain ⟨rfl, rfl⟩ := pure_eq_ok.mp hrun
    exact ⟨y, rfl, hy⟩

/-- **The arguments of a call are one or two**, as the function takes them. -/
lemma arguments_eq_ok {s t : Running σ} {args : Arguments}
    (hrun : arguments f one s = .ok args t) :
    (∃ x, f.arity ≠ .two ∧ args = .one x ∧ argument one s = .ok (x, true) t) ∨
      ∃ x y u, f.arity ≠ .one ∧ args = .two x y ∧ argument one s = .ok (x, false) u ∧
        argument one u = .ok (y, true) t := by
  rw [arguments_eq] at hrun
  obtain ⟨⟨x, last⟩, u, hx, hrun⟩ := bind_eq_ok.mp hrun
  unfold furtherArguments Builtin.take at hrun
  cases hf : f.arity <;> cases last <;> simp only [hf] at hrun
  case one.true | oneOrTwo.true =>
    obtain ⟨rfl, rfl⟩ := pure_eq_ok.mp hrun
    exact .inl ⟨x, by decide, rfl, hx⟩
  case one.false | two.true => cases hrun
  case two.false | oneOrTwo.false =>
    obtain ⟨y, rfl, hy⟩ := secondArgument_eq_ok hrun
    exact .inr ⟨x, y, u, by decide, rfl, hx, hy⟩

end Scanner

/-- **Evaluations against a document**: random numbers are drawn from a generator, and the clock has
not started. -/
def Env.ofDocument (context : Json) (maxDepth : Nat) : Env Json Generator :=
  ⟨context, documents, RandomSource.generator, Tick.zero, maxDepth⟩

/-- An evaluation reads the whole text from its start, whatever the evaluator was used for. -/
lemma Evaluator.eval_eq (e : Evaluator) (env : Env ω σ) (text : String) (host : σ) :
    e.eval env text host = match Scanner.formula env (.facing 0 text.toList 0 host) with
      | .ok x s => (.ok x, blank, s.host)
      | .error error s => (.error error, blank, s.host) := rfl

/-- An evaluation gives a value exactly when the whole text is read. -/
lemma Evaluator.eval_eq_ok_iff {e : Evaluator} {env : Env ω σ} {text : String} {host : σ}
    {v : Float} : (e.eval env text host).1 = .ok v ↔
      ∃ s, Scanner.formula env (.facing 0 text.toList 0 host) = .ok v s := by
  rw [eval_eq]
  cases Scanner.formula env (.facing 0 text.toList 0 host) <;> simp

end Formula
