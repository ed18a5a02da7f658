import Formula.Proofs.Draws.Completed

set_option relaxedAutoImplicit false
set_option autoImplicit false

/-!
# Texts that break off

What evaluation has read when it stops with an error is a text that breaks off: an expression has
been begun in it and is not finished. It is made up of expressions that are finished, of the
operators and parentheses between them, and at its end of something that closes no call. The calls
that are completed in it are those that the finished expressions complete. A call with a wrong
number of arguments is not among them, but those in its arguments are.

## Main definitions

* `Formula.Fragment` — texts in which no call is closed.
* `Formula.Operand.Begun`, `Formula.Arguments.Begun`, `Formula.Chain.Begun`, `Formula.Links.Begun` —
  texts that break off, with the calls that are completed in them.

## Main results

* `Formula.Chain.Begun.inOrder` — calls are completed in the order of their parentheses.
-/

namespace Formula

variable {ω σ : Type}

/-- **Texts in which no call is closed**: the only closing parenthesis in them, if there is one,
belongs to the type name of a component. -/
inductive Fragment : List Char → Prop where
  /-- There is no closing parenthesis. -/
  | plain {t : List Char} : ')' ∉ t → Fragment t
  /-- A mark, a type name in parentheses, and no further closing parenthesis. -/
  | component {typeName t : List Char} :
      ')' ∉ typeName → ')' ∉ t → Fragment ('$' :: '(' :: typeName ++ ')' :: t)

mutual

/-- **A text that starts at a position and breaks off in an operand**, with the calls that are
completed in it. -/
inductive Operand.Begun (env : Env ω σ) : Nat → List Char → σ → List Completed → Prop where
  /-- A blank before an operand. -/
  | blank {p : Nat} {c : Char} {t : List Char} {h : σ} {cs : List Completed} :
      Text.isBlank c = true → Operand.Begun env (p + 1) t h cs → Operand.Begun env p (c :: t) h cs
  /-- Something that closes no call, or nothing at all. -/
  | fragment {p : Nat} {t : List Char} {h : σ} : Fragment t → Operand.Begun env p t h []
  /-- Behind a sign. -/
  | sign {p : Nat} {c : Char} {t : List Char} {h : σ} {cs : List Completed} :
      c = '+' ∨ c = '-' → Operand.Begun env (p + 1) t h cs → Operand.Begun env p (c :: t) h cs
  /-- In a group. -/
  | group {p : Nat} {t : List Char} {h : σ} {cs : List Completed} :
      Chain.Begun env (p + 1) t h cs → Operand.Begun env p ('(' :: t) h cs
  /-- In the arguments of a call, or behind them when their number is wrong. -/
  | call {p : Nat} {f : Builtin} {o t : List Char} {h : σ} {cs : List Completed} :
      f.Opening o → Arguments.Begun env f (p + o.length) t h cs → Operand.Begun env p (o ++ t) h cs

/-- **A text that breaks off in the arguments of a call** of a function, or behind the character
that shows that their number is wrong. -/
inductive Arguments.Begun (env : Env ω σ) :
    Builtin → Nat → List Char → σ → List Completed → Prop where
  /-- In the first argument. -/
  | first {f : Builtin} {p : Nat} {t : List Char} {h : σ} {cs : List Completed} :
      Chain.Begun env p t h cs → Arguments.Begun env f p t h cs
  /-- In the second argument. -/
  | second {f : Builtin} {p : Nat} {x : Chain} {t u : List Char} {h : σ} {cs ds : List Completed} :
      f.arity ≠ .one → x.WellFormed false → Chain.Completes env p x t h cs →
      Chain.Begun env (p + (t ++ [',']).length) u (x.meaning env h).2 ds →
      Arguments.Begun env f p (t ++ [','] ++ u) h (cs ++ ds)
  /-- Behind one argument, where there must be two. -/
  | tooFew {f : Builtin} {p : Nat} {x : Chain} {t : List Char} {h : σ} {cs : List Completed} :
      f.arity = .two → x.WellFormed true → Chain.Completes env p x t h cs →
      Arguments.Begun env f p (t ++ [')']) h cs
  /-- Behind the comma after an argument, where there must be one. -/
  | tooMany {f : Builtin} {p : Nat} {x : Chain} {t : List Char} {h : σ} {cs : List Completed} :
      f.arity = .one → x.WellFormed false → Chain.Completes env p x t h cs →
      Arguments.Begun env f p (t ++ [',']) h cs
  /-- Behind the comma after a second argument. -/
  | thirdComma {f : Builtin} {p : Nat} {x y : Chain} {t u : List Char} {h : σ}
      {cs ds : List Completed} :
      f.arity ≠ .one → x.WellFormed false → y.WellFormed false → Chain.Completes env p x t h cs →
      Chain.Completes env (p + (t ++ [',']).length) y u (x.meaning env h).2 ds →
      Arguments.Begun env f p (t ++ [','] ++ u ++ [',']) h (cs ++ ds)

/-- **A text that breaks off in a chain.** -/
inductive Chain.Begun (env : Env ω σ) : Nat → List Char → σ → List Completed → Prop where
  /-- In its first operand. -/
  | first {p : Nat} {t : List Char} {h : σ} {cs : List Completed} :
      Operand.Begun env p t h cs → Chain.Begun env p t h cs
  /-- Behind its first operand. -/
  | links {last : Bool} {p : Nat} {e : Operand} {t u : List Char} {h : σ}
      {cs ds : List Completed} :
      e.WellFormed last → Operand.Completes env p e t h cs →
      Links.Begun env last (p + t.length) u (e.meaning env h).2 ds → MayTouch t u →
      Chain.Begun env p (t ++ u) h (cs ++ ds)

/-- A text that breaks off in links, or behind them; `last` tells that nothing but blanks is read
of them. -/
inductive Links.Begun (env : Env ω σ) :
    Bool → Nat → List Char → σ → List Completed → Prop where
  /-- Behind the blanks after an operand, where neither an operator nor the end of the chain
  follows. -/
  | stop {p : Nat} {w : List Char} {h : σ} : Blanks w → Links.Begun env true p w h []
  /-- In a right operand. -/
  | right {p : Nat} {op : Operator} {w token t : List Char} {h : σ} {cs : List Completed} :
      Blanks w → token ∈ op.spellings → Operand.Begun env (p + (w ++ token).length) t h cs →
      Links.Begun env false p (w ++ token ++ t) h cs
  /-- Behind a right operand. -/
  | cons {last : Bool} {p : Nat} {op : Operator} {e : Operand} {w token t u : List Char} {h : σ}
      {cs ds : List Completed} :
      Blanks w → token ∈ op.spellings → e.WellFormed last →
      Operand.Completes env (p + (w ++ token).length) e t h cs →
      Links.Begun env last (p + (w ++ token ++ t).length) u (e.meaning env h).2 ds →
      MayTouch t u → Links.Begun env false p (w ++ token ++ t ++ u) h (cs ++ ds)

end

variable {env : Env ω σ}

/-- Blanks in front of a text that breaks off in an operand. -/
lemma Operand.Begun.blanks {w t : List Char} (hw : Blanks w) {p : Nat} {h : σ}
    {cs : List Completed} (ht : Operand.Begun env (p + w.length) t h cs) :
    Operand.Begun env p (w ++ t) h cs := by
  induction w generalizing p with
  | nil => exact ht
  | cons b w ih =>
    rw [position_cons] at ht
    exact .blank (hw b List.mem_cons_self) (ih (fun c hc => hw c (List.mem_cons_of_mem _ hc)) ht)

mutual

/-- **The calls completed in a text that breaks off are in the order of their closing
parentheses.** -/
theorem Operand.Begun.inOrder {p : Nat} {t : List Char} {h : σ} {cs : List Completed} :
    Operand.Begun env p t h cs → InOrder p t cs
  | @Operand.Begun.blank _ _ _ _ c _ _ _ _ ht => .behind [c] ht.inOrder
  | .fragment _ => .nil p t
  | @Operand.Begun.sign _ _ _ _ c _ _ _ _ ht => .behind [c] ht.inOrder
  | .group ht => .behind ['('] ht.inOrder
  | .call _ ht => .behind _ ht.inOrder

/-- The calls completed in arguments that break off are in the order of their closing
parentheses. -/
theorem Arguments.Begun.inOrder {f : Builtin} {p : Nat} {t : List Char} {h : σ}
    {cs : List Completed} : Arguments.Begun env f p t h cs → InOrder p t cs
  | .first ht => ht.inOrder
  | .second _ _ hx ht => (hx.inOrder.before [',']).append ht.inOrder
  | .tooFew _ _ hx => hx.inOrder.before [')']
  | .tooMany _ _ hx => hx.inOrder.before [',']
  | .thirdComma _ _ _ hx hy => ((hx.inOrder.before [',']).append hy.inOrder).before [',']

/-- **The calls completed in a chain that breaks off are in the order of their closing
parentheses.** -/
theorem Chain.Begun.inOrder {p : Nat} {t : List Char} {h : σ} {cs : List Completed} :
    Chain.Begun env p t h cs → InOrder p t cs
  | .first ht => ht.inOrder
  | .links _ he ht _ => he.inOrder.append ht.inOrder

/-- The calls completed in links that break off are in the order of their closing parentheses. -/
theorem Links.Begun.inOrder {last : Bool} {p : Nat} {t : List Char} {h : σ}
    {cs : List Completed} : Links.Begun env last p t h cs → InOrder p t cs
  | .stop _ => .nil p t
  | .right _ _ ht => .behind _ ht.inOrder
  | .cons _ _ _ he ht _ => (InOrder.behind _ he.inOrder).append ht.inOrder

end

end Formula
