import Formula.Proofs.Draws.Completed
import Formula.Proofs.NestingLimit

set_option relaxedAutoImplicit false
set_option autoImplicit false

/-!
# Calls and the number of their arguments

A call is read argument by argument, and the comma or the parenthesis behind each of them tells
whether there are as many as the function takes. If there are, the function is called on their
values. If there are not, the call is refused as soon as that is known, so what follows in the text
does not matter; and there is no other way in which a call can have the wrong arguments.

The arguments are told by texts that are accepted standing alone with one level less than the call.

## Main definitions

* `Formula.ComesTo` — what a text comes to with so many levels.
* `Formula.Supplied` — the texts of arguments, and their values.
* `Formula.Miscounted` — the beginnings of argument lists that are wrong already.
* `Formula.IsUnknown` — the names of no function.

## Main results

* `Formula.Supplied.comesTo` — a function is called on the values of its arguments.
* `Formula.Miscounted.comesTo` — a wrong number of arguments is refused, whatever follows.
* `Formula.IsUnknown.comesTo` — so is a name that no function has.
* `Formula.call_dispatched` — all of these, and that a function refuses no arguments that are read.
-/

namespace Formula

open Scanner

variable {ω σ : Type}

/-- **What a text comes to** with so many levels, in whatever evaluator: a result, and the state in
which the host is left. -/
def ComesTo (env : Env ω σ) (levels : Nat) (text : String) (host : σ)
    (result : Except EvalError Float) (host' : σ) : Prop :=
  ∀ e : Evaluator, e.evalWithin env levels text host = (result, .blank, host')

/-- **The texts of one or two arguments**, each accepted standing alone with so many levels, and
their values; the second argument finds the host as the first one has left it. -/
inductive Supplied (env : Env ω σ) (levels : Nat) : Arguments → String → σ → σ → Prop where
  /-- One argument. -/
  | one {a : String} {x : Float} {h h₁ : σ} :
      ComesTo env levels a h (.ok x) h₁ → Supplied env levels (.one x) a h h₁
  /-- Two arguments with a comma between them. -/
  | two {a b : String} {x y : Float} {h h₁ h₂ : σ} :
      ComesTo env levels a h (.ok x) h₁ → ComesTo env levels b h₁ (.ok y) h₂ →
      Supplied env levels (.two x y) (a ++ "," ++ b) h h₂

/-- **An argument list whose number of arguments is wrong already**, with any text behind the
character that tells so. -/
inductive Miscounted (env : Env ω σ) (levels : Nat) (f : Builtin) : String → σ → σ → Prop where
  /-- A comma behind the only argument that the function takes. -/
  | comma {a : String} {x : Float} {h h₁ : σ} (rest : String) :
      f.arity = .one → ComesTo env levels a h (.ok x) h₁ →
      Miscounted env levels f (a ++ "," ++ rest) h h₁
  /-- A closing parenthesis where the function takes another argument. -/
  | close {a : String} {x : Float} {h h₁ : σ} (rest : String) :
      f.arity = .two → ComesTo env levels a h (.ok x) h₁ →
      Miscounted env levels f (a ++ ")" ++ rest) h h₁
  /-- A comma behind the second argument. -/
  | second {a b : String} {x y : Float} {h h₁ h₂ : σ} (rest : String) :
      f.arity ≠ .one → ComesTo env levels a h (.ok x) h₁ → ComesTo env levels b h₁ (.ok y) h₂ →
      Miscounted env levels f (a ++ "," ++ b ++ "," ++ rest) h h₂

/-! ## Arguments that stand alone -/

/-- **A text that is accepted is that of an expression**, whose nesting fits the levels and whose
meaning is the value. -/
lemma ComesTo.written {env : Env ω σ} {levels : Nat} {text : String} {h h' : σ} {x : Float}
    (hcomes : ComesTo env levels text h (.ok x) h') :
    ∃ c : Chain, Chain.Written c text.toList ∧ c.WellFormed false ∧ c.nesting ≤ levels ∧
      c.meaning env h = (x, h') := by
  have heval := hcomes .blank
  rw [Evaluator.evalWithin, Evaluator.eval_eq] at heval
  cases hrun : formula { env with maxDepth := levels } (.facing 0 text.toList 0 h) with
  | error e s =>
    rw [hrun] at heval
    cases heval
  | ok y s =>
    rw [hrun] at heval
    cases heval
    obtain ⟨c, htext, hwf, hnesting, hmeaning⟩ := formula_derived hrun
    rw [Chain.meaning_maxDepth] at hmeaning
    exact ⟨c, htext, hwf, hnesting, hmeaning⟩

section

variable {env : Env ω σ} {levels : Nat} {a : String} {x : Float} {h h' : σ}
  (ha : ComesTo env levels a h (.ok x) h')

include ha

/-- An accepted text is read as an argument up to a comma behind it. -/
lemma ComesTo.argument_comma (p : Nat) (cs : List Char) (d : Nat) :
    argument (operand { env with maxDepth := levels + 1 } levels)
        (.facing p (a.toList ++ ',' :: cs) d h) =
      .ok (x, false) (.facing (p + a.toList.length + 1) cs d h') := by
  obtain ⟨c, htext, hwf, hnesting, hmeaning⟩ := ha.written
  have hreads : c.Reads { env with maxDepth := levels + 1 } a.toList := Chain.reads htext
  have hrun := (hreads.argument_comma hwf levels p cs d h).1 hnesting
  rwa [Chain.meaning_maxDepth, hmeaning] at hrun

/-- An accepted text is read as the last argument up to a closing parenthesis behind it. -/
lemma ComesTo.argument_close (p : Nat) (cs : List Char) (d : Nat) :
    argument (operand { env with maxDepth := levels + 1 } levels)
        (.facing p (a.toList ++ ')' :: cs) (d + 1) h) =
      .ok (x, true) (.facing (p + a.toList.length + 1) cs d h') := by
  obtain ⟨c, htext, hwf, hnesting, hmeaning⟩ := ha.written
  have hreads : c.Reads { env with maxDepth := levels + 1 } a.toList := Chain.reads htext
  have hrun := (hreads.argument_close (hwf.mono fun _ => rfl) levels p cs d h).1 hnesting
  rwa [Chain.meaning_maxDepth, hmeaning] at hrun

end

/-! ## As many arguments as the function takes -/

/-- The text of a call is that of an expression which is called on the values of its arguments. -/
lemma Supplied.written {env : Env ω σ} {levels : Nat} {f : Builtin} {o t : String}
    {args : Arguments} {h h' : σ} (ho : f.Opening o.toList)
    (hargs : Supplied env levels args t h h') (hadmits : f.arity.admits args = true) :
    ∃ c : Chain, Chain.Written c (o ++ t ++ ")").toList ∧ c.WellFormed false ∧
      c.nesting ≤ levels + 1 ∧
      c.meaning env h =
        ((f.call env.random args h').1.getD 0.0, (f.call env.random args h').2) := by
  obtain ⟨name, w, hname, hw, ho⟩ := ho
  have hend : Links.Written .nil [] := .nil .nil
  cases hargs with
  | one ha =>
    obtain ⟨a, htext, hwf, hnesting, hmeaning⟩ := ha.written
    refine ⟨.mk (.callOne f a) .nil, ?_, ⟨⟨?_, hwf.mono fun _ => rfl⟩, trivial⟩, ?_, ?_⟩
    · have hcall := Chain.Written.mk (.callOne hname hw htext) hend (MayTouch.of_close _ _)
      simpa [ho] using hcall
    · intro htwo
      simp [htwo, Arity.admits] at hadmits
    · simpa [Chain.nesting, Operand.nesting, Links.nesting] using hnesting
    · simp only [Chain.meaning, Operand.meaning, Links.meaning, StateT.bind, bind, hmeaning]
      rfl
  | two ha hb =>
    obtain ⟨a, htext, hwf, hnesting, hmeaning⟩ := ha.written
    obtain ⟨b, htext', hwf', hnesting', hmeaning'⟩ := hb.written
    refine ⟨.mk (.callTwo f a b) .nil, ?_, ⟨⟨?_, hwf, hwf'.mono fun _ => rfl⟩, trivial⟩, ?_, ?_⟩
    · have hcall := Chain.Written.mk (.callTwo hname hw htext htext') hend (MayTouch.of_close _ _)
      simpa [ho] using hcall
    · intro hone
      simp [hone, Arity.admits] at hadmits
    · simpa [Chain.nesting, Operand.nesting, Links.nesting] using ⟨hnesting, hnesting'⟩
    · simp only [Chain.meaning, Operand.meaning, Links.meaning, StateT.bind, bind, hmeaning,
        hmeaning']
      rfl

/-- **A function is called on the values of its arguments**, if it takes so many. -/
lemma Supplied.comesTo {env : Env ω σ} {levels : Nat} {f : Builtin} {o t : String}
    {args : Arguments} {h h' : σ} (ho : f.Opening o.toList)
    (hargs : Supplied env levels args t h h') (hadmits : f.arity.admits args = true) :
    ∃ v, (f.call env.random args h').1 = some v ∧
      ComesTo env (levels + 1) (o ++ t ++ ")") h (.ok v) (f.call env.random args h').2 := by
  obtain ⟨c, htext, hwf, hnesting, hmeaning⟩ := hargs.written ho hadmits
  have hsome := Builtin.call_isSome_iff env.random f args h'
  rw [hadmits] at hsome
  obtain ⟨v, hv⟩ := Option.isSome_iff_exists.mp hsome
  change (f.call env.random args h').1 = some v at hv
  refine ⟨v, hv, fun e => ?_⟩
  have henough := (hasThreshold_written env h htext hwf).enough e (levels + 1) hnesting
  rwa [hmeaning, hv] at henough

/-! ## A wrong number of arguments -/

namespace Scanner

variable {f : Builtin} {one : Scanner σ Float} {s t u : Running σ} {x y : Float}

/-- A comma behind the only argument that a function takes is an error. -/
lemma arguments_comma (hf : f.arity = .one) (hx : argument one s = .ok (x, false) t) :
    arguments f one s = .error (.argumentCount f) t := by
  rw [arguments_eq, bind_of_ok hx, furtherArguments, Builtin.take_comma hf]
  rfl

/-- A closing parenthesis behind the first of two arguments is an error. -/
lemma arguments_close (hf : f.arity = .two) (hx : argument one s = .ok (x, true) t) :
    arguments f one s = .error (.argumentCount f) t := by
  rw [arguments_eq, bind_of_ok hx, furtherArguments, Builtin.take_close hf]
  rfl

/-- A comma behind a second argument is an error. -/
lemma arguments_second (hf : f.arity ≠ .one) (hx : argument one s = .ok (x, false) t)
    (hy : argument one t = .ok (y, false) u) :
    arguments f one s = .error (.argumentCount f) u := by
  rw [arguments_eq, bind_of_ok hx, furtherArguments, Builtin.take_more hf]
  exact bind_of_ok hy _

/-- What goes wrong in its first operand goes wrong in a whole text. -/
lemma formula_of_operand {env : Env ω σ} {e : EvalError}
    (hrun : operand env env.maxDepth s = .error e t) : formula env s = .error e t :=
  bind_of_error (bind_of_error hrun _) _

end Scanner

/-- A text comes to the error with which its reading stops. -/
lemma ComesTo.of_error {env : Env ω σ} {levels : Nat} {text : String} {h : σ} {error : EvalError}
    {s : Running σ}
    (hrun : operand { env with maxDepth := levels } levels (.facing 0 text.toList 0 h) =
      .error error s) : ComesTo env levels text h (.error error) s.host := by
  intro e
  have hformula : formula { env with maxDepth := levels } (.facing 0 text.toList 0 h) =
      .error error s := formula_of_operand hrun
  rw [Evaluator.evalWithin, Evaluator.eval_eq, hformula]

/-- **The arguments of a call are refused** as soon as their number is known to be wrong. -/
lemma Miscounted.arguments_eq_error {env : Env ω σ} {levels : Nat} {f : Builtin} {t : String}
    {h h' : σ} (hargs : Miscounted env levels f t h h') (p d : Nat) :
    ∃ s, arguments f (operand { env with maxDepth := levels + 1 } levels)
        (.facing p t.toList (d + 1) h) = .error (.argumentCount f) s ∧ s.host = h' := by
  cases hargs with
  | @comma a x _ _ rest hf ha =>
    have hx := ha.argument_comma p rest.toList (d + 1)
    have htext : (a ++ "," ++ rest).toList = a.toList ++ ',' :: rest.toList := by simp
    rw [htext]
    exact ⟨_, arguments_comma hf hx, rfl⟩
  | @close a x _ _ rest hf ha =>
    have hx := ha.argument_close p rest.toList d
    have htext : (a ++ ")" ++ rest).toList = a.toList ++ ')' :: rest.toList := by simp
    rw [htext]
    exact ⟨_, arguments_close hf hx, rfl⟩
  | @second a b x y _ _ _ rest hf ha hb =>
    have hx := ha.argument_comma p (b.toList ++ ',' :: rest.toList) (d + 1)
    have hy := hb.argument_comma (p + a.toList.length + 1) rest.toList (d + 1)
    have htext : (a ++ "," ++ b ++ "," ++ rest).toList =
        a.toList ++ ',' :: (b.toList ++ ',' :: rest.toList) := by simp
    rw [htext]
    exact ⟨_, arguments_second hf hx hy, rfl⟩

/-- **A wrong number of arguments is refused**, whatever follows in the text. -/
lemma Miscounted.comesTo {env : Env ω σ} {levels : Nat} {f : Builtin} {o t : String} {h h' : σ}
    (ho : f.Opening o.toList) (hargs : Miscounted env levels f t h h') :
    ComesTo env (levels + 1) (o ++ t) h (.error (.argumentCount f)) h' := by
  obtain ⟨name, w, hname, hw, ho⟩ := ho
  obtain ⟨s, hs, rfl⟩ := hargs.arguments_eq_error (0 + name.length + w.length + 1) 0
  refine .of_error ?_
  have htext : (o ++ t).toList = name ++ (w ++ '(' :: t.toList) := by simp [ho]
  rw [htext, operand_call _ _ _ _ _ _ hname hw]
  exact bind_of_error hs _

/-! ## Names of no function -/

/-- **A name of no function**: a letter with letters and digits behind it, which in no letter case
is a function's name. -/
structure IsUnknown (g : List Char) : Prop where
  /-- It starts with a letter. -/
  head : ∃ c cs, g = c :: cs ∧ c.isAlpha = true
  /-- It is made of letters and digits. -/
  isAlphanum : ∀ c ∈ g, c.isAlphanum = true
  /-- It is no function's name. -/
  ne_name : ∀ f : Builtin, Text.lower g ≠ f.name.toList

/-- No function is found under such a name. -/
lemma IsUnknown.named?_eq_none {g : List Char} (hg : IsUnknown g) :
    Builtin.named? (String.ofList (Text.lower g)) = none := by
  cases hf : Builtin.named? (String.ofList (Text.lower g)) with
  | none => rfl
  | some f => exact absurd (Builtin.lower_of_named? hf) (hg.ne_name f)

/-- **A name of no function is refused** in front of a parenthesis, whatever follows in the text and
however few levels there are. -/
lemma IsUnknown.comesTo {g w : String} (hg : IsUnknown g.toList) (hw : Blanks w.toList)
    (env : Env ω σ) (levels : Nat) (t : String) (h : σ) :
    ComesTo env levels (g ++ w ++ "(" ++ t) h
      (.error (.unknownFunction (.ofList (Text.lower g.toList)))) h := by
  let env' : Env ω σ := { env with maxDepth := levels }
  have hcall := call_name env' (level env' levels) hg.isAlphanum hw t.toList 0 0 h
  rw [hg.named?_eq_none] at hcall
  have hrun : operand env' levels (.facing 0 (g.toList ++ (w.toList ++ '(' :: t.toList)) 0 h) =
      .error (.unknownFunction (.ofList (Text.lower g.toList)))
        (.facing (0 + g.toList.length + w.toList.length + 1) t.toList 1 h) := by
    obtain ⟨c, cs, hcs, hc⟩ := hg.head
    rw [hcs, List.cons_append] at hcall ⊢
    rw [operand_alpha _ _ _ _ _ _ hc]
    exact hcall
  have htext : (g ++ w ++ "(" ++ t).toList = g.toList ++ (w.toList ++ '(' :: t.toList) := by simp
  rw [← htext] at hrun
  exact ComesTo.of_error hrun

/-! ## No other way -/

/-- **Arguments that are read are as many as the function takes**, so the function gives a value for
them. -/
lemma Scanner.call_ne_none_of_nested {env : Env ω σ} {inner : Option (Scanner σ Float)}
    {f : Builtin} {s s' : Running σ} {args : Arguments}
    (hrun : nested env inner (arguments f) s = .ok args s') (h : σ) :
    (f.call env.random args h).1 ≠ none := by
  have hadmits : f.arity.admits args = true := by
    cases inner with
    | none => cases hrun
    | some one =>
      rcases arguments_eq_ok hrun with ⟨x, hf, rfl, -⟩ | ⟨x, y, -, hf, rfl, -, -⟩
      · exact admits_one hf x
      · exact admits_two hf x y
  have hsome := Builtin.call_isSome_iff env.random f args h
  rw [hadmits] at hsome
  exact Option.isSome_iff_ne_none.mp hsome

/-- **Calls are dispatched by name and number of arguments.** On a level that is left, a function in
any letter case is called on the values of arguments that are accepted standing alone one level
deeper, if it takes so many; if the number is wrong the call is refused as soon as that is known,
whatever follows. A name of no function is refused with any number of levels. Arguments that are
read are never refused by the function itself.

**Proof sketch.** An accepted argument is the text of an expression, which is read in the same way
in front of a comma and of a closing parenthesis. With the right number of arguments the whole call
is the text of an expression, too; otherwise the character behind an argument stops the reading. -/
theorem call_dispatched (env : Env ω σ) (levels : Nat) (h : σ) :
    (∀ (f : Builtin) (o t : String) (args : Arguments) (h' : σ), f.Opening o.toList →
      Supplied env levels args t h h' → f.arity.admits args = true →
      ∃ v, (f.call env.random args h').1 = some v ∧
        ComesTo env (levels + 1) (o ++ t ++ ")") h (.ok v) (f.call env.random args h').2) ∧
    (∀ (f : Builtin) (o t : String) (h' : σ), f.Opening o.toList →
      Miscounted env levels f t h h' →
      ComesTo env (levels + 1) (o ++ t) h (.error (.argumentCount f)) h') ∧
    (∀ (limit : Nat) (g w t : String), IsUnknown g.toList → Blanks w.toList →
      ComesTo env limit (g ++ w ++ "(" ++ t) h
        (.error (.unknownFunction (.ofList (Text.lower g.toList)))) h) ∧
    (∀ (inner : Option (Scanner σ Float)) (f : Builtin) (s s' : Running σ) (args : Arguments),
      nested env inner (arguments f) s = .ok args s' →
      ∀ h', (f.call env.random args h').1 ≠ none) :=
  ⟨fun _ _ _ _ _ ho hargs hadmits => hargs.comesTo ho hadmits,
    fun _ _ _ _ ho hargs => hargs.comesTo ho,
    fun limit _ _ t hg hw => hg.comesTo hw env limit t h,
    fun _ _ _ _ _ hrun h' => call_ne_none_of_nested hrun h'⟩

/-- On a square root of the context, an arc tangent with one argument, and a name of no function. -/
theorem call_dispatched_sqrt :
    ComesTo (.ofDocument (.bool true) 0) 1 "Sqrt ($)" (5 : Generator) (.ok (Float.sqrt 1.0)) 5 ∧
      ComesTo (.ofDocument (.bool true) 0) 1 "aTan2($) ) 7" (5 : Generator)
        (.error (.argumentCount .atan2)) 5 ∧
      ComesTo (.ofDocument (.bool true) 0) 0 "Sqr1 (" (5 : Generator)
        (.error (.unknownFunction "sqr1")) 5 := by
  have hcontext : ComesTo (.ofDocument (.bool true) 0) 0 "$" (5 : Generator) (.ok 1.0) 5 :=
    fun e => rfl
  obtain ⟨hcalled, hrefused, hunknown, -⟩ :=
    call_dispatched (.ofDocument (.bool true) 0) 0 (5 : Generator)
  have hblank : Blanks [' '] := by simp [Blanks, Text.isBlank]
  refine ⟨?_, ?_, ?_⟩
  · have hopening : Builtin.sqrt.Opening "Sqrt (".toList :=
      ⟨['S', 'q', 'r', 't'], [' '], by decide, hblank, by decide⟩
    obtain ⟨v, hv, hcomes⟩ := hcalled .sqrt "Sqrt (" "$" _ 5 hopening (.one hcontext) rfl
    cases hv
    exact hcomes
  · have hopening : Builtin.atan2.Opening "aTan2(".toList :=
      ⟨['a', 'T', 'a', 'n', '2'], [], by decide, .nil, by decide⟩
    exact hrefused .atan2 "aTan2(" _ 5 hopening (.close " ) 7" rfl hcontext)
  · have hname : IsUnknown ['S', 'q', 'r', '1'] :=
      ⟨⟨'S', ['q', 'r', '1'], rfl, by decide⟩, List.all_eq_true.mp (by decide),
        fun f => by cases f <;> decide⟩
    exact hunknown 0 "Sqr1" " " "" hname hblank

end Formula
