import Formula.Proofs.Grouping

set_option relaxedAutoImplicit false
set_option autoImplicit false

/-!
# A mark in front of an operator

A mark with nothing behind it stands for the context, and blanks may stand between it and the
operator that follows, but need not. Only a minus sign in front of a letter is no operator when it
touches the mark: the two start the name of a constant. Behind a blank the letter can only start a
call, and its parenthesis cannot follow the name of a constant. So a text with a blank there that is
accepted is refused without it.

## Main results

* `Formula.Scanner.formula_mark` — the links behind a mark go on with the number of the context.
* `Formula.Scanner.operand_mark_minus` — a mark, a minus sign and a letter start a constant.
* `Formula.Scanner.formula_mark_call` — a mark, a minus sign and a call are refused at the
  parenthesis.
* `Formula.eval_mark_glued` — the blank between a mark and an operator changes nothing, unless a
  minus sign and a letter follow it.
-/

namespace Formula

open Scanner

variable {ω σ : Type}

/-- An operator that starts with a minus sign is that sign. -/
lemma Operator.eq_of_minus {op : Operator} {tail : List Char} (h : '-' :: tail ∈ op.spellings) :
    tail = [] := by
  cases op <;> simp_all [spellings]

namespace Scanner

variable (env : Env ω σ)

/-- **A mark stands for the context** when blanks follow it or what may follow an operand: the links
behind it go on with the number of the context. -/
lemma formula_mark {w rest : List Char} (hw : Blanks w) (hrest : FollowsOperand (w ++ rest))
    (htouch : MayTouch ['$'] (w ++ rest)) (h : σ) :
    formula env (.facing 0 ('$' :: (w ++ rest)) 0 h) =
      (links env env.maxDepth .whole (env.model.number env.context h).1 >>= fun r => pure r.1)
        (.facing (1 + w.length) rest 0 (env.model.number env.context h).2) := by
  have hmark : Chain.Written (.mk (.reference .context) .nil) ['$'] :=
    .mk (.reference .context) (.nil .nil) (MayTouch.of_head (by simp))
  have hread : formula env (.facing 0 (['$'] ++ (w ++ rest)) 0 h) = _ :=
    formula_append hmark ⟨trivial, trivial⟩ (Nat.zero_le _) hrest htouch h
  rw [bind_apply, links_blanks env _ _ hw, ← bind_apply] at hread
  exact hread

/-- A minus sign and a letter that are read as a link are read up to the parenthesis of a call. -/
lemma call_of_links {levels : Nat} {scope : Scope} {c : Char} (hc : c.isAlpha = true) {r : Float}
    {p : Nat} {cs : List Char} {d : Nat} {h : σ} {y : Float × Ending} {t : Running σ}
    (hrun : links env levels scope r (.facing p ('-' :: c :: cs) d h) = .ok y t) :
    ∃ (f : Builtin) (name w rest : List Char), Text.lower name = f.name.toList ∧ Blanks w ∧
      c :: cs = name ++ (w ++ '(' :: rest) := by
  rw [links_operator env levels scope (by decide) (by decide) (fun hcomma => by simp at hcomma)]
    at hrun
  obtain ⟨op, u, hop, hlink⟩ := bind_eq_ok.mp hrun
  obtain ⟨x, v, hx, -⟩ := bind_eq_ok.mp hlink
  obtain ⟨-, rfl⟩ : Operator.sub = op ∧ .facing (p + 1) (c :: cs) d h = u := by
    simpa [operator_apply, Operator.read?, Cursor.advanceBy] using hop
  rw [operand_alpha env levels _ _ _ _ hc] at hx
  obtain ⟨f, name, w, rest, -, hname, hw, hcs, -⟩ := text_of_call env _ hx
  exact ⟨f, name, w, rest, hname, hw, hcs⟩

/-- **A mark, a minus sign and a letter start a constant**: its name is the sign and the longest run
of word characters behind it. -/
lemma operand_mark_minus (levels : Nat) {c : Char} (hc : c.isAlpha = true) (cs : List Char)
    (p d : Nat) (h : σ) :
    operand env levels (.facing p ('$' :: '-' :: c :: cs) d h) =
      .ok ((constant? (String.ofList
          ('-' :: Text.lowerName ((c :: cs).takeWhile Text.isWordChar))) env.tick).getD 0.0)
        (.facing (p + 2 + ((c :: cs).takeWhile Text.isWordChar).length)
          ((c :: cs).dropWhile Text.isWordChar) d h) := by
  have hword : Text.isWordChar c = true :=
    Text.isWordChar_of_isAlphanum (by rw [Char.isAlphanum, hc, Bool.true_or])
  have hname : IsName ((c :: cs).takeWhile Text.isWordChar) := by
    refine ⟨?_, fun x hx => List.mem_takeWhile_imp hx⟩
    rw [List.takeWhile_cons_of_pos hword]
    exact List.cons_ne_nil _ _
  have hbehind : ∀ x ∈ ((c :: cs).dropWhile Text.isWordChar).head?, Text.isWordChar x = false := by
    intro x hx
    have hnot := List.head?_dropWhile_not Text.isWordChar (c :: cs)
    rw [hx] at hnot
    simpa using hnot
  have hsplit := List.takeWhile_append_dropWhile (p := Text.isWordChar) (l := c :: cs)
  generalize (c :: cs).takeWhile Text.isWordChar = name at *
  generalize (c :: cs).dropWhile Text.isWordChar = behind at *
  have hread : namedConstant env (.facing (p + 1) ('-' :: (name ++ behind)) d h) =
      .ok _ (.facing (p + 1 + ('-' :: name).length) behind d h) :=
    namedConstant_text env true hname hbehind (p + 1) d h
  rw [position_cons, hsplit] at hread
  rw [operand_mark, reference_cons, if_pos ⟨rfl, hc⟩]
  exact hread

section

variable {f : Builtin} {name w : List Char} (hname : Text.lower name = f.name.toList)
  (hw : Blanks w) (cs : List Char)

include hname hw

/-- The run of word characters with which a call starts is the name of the function. -/
lemma span_of_call :
    (name ++ (w ++ '(' :: cs)).takeWhile Text.isWordChar = name ∧
      (name ++ (w ++ '(' :: cs)).dropWhile Text.isWordChar = w ++ '(' :: cs := by
  have hword : ∀ x ∈ name, Text.isWordChar x = true := fun x hx =>
    Text.isWordChar_of_isAlphanum (Builtin.isAlphanum_of_lower hname x hx)
  have hbehind : ∀ x ∈ (w ++ '(' :: cs).head?, Text.isWordChar x = false := by
    intro x hx
    cases w with
    | nil =>
      obtain rfl : '(' = x := by simpa using hx
      decide
    | cons b bs =>
      obtain rfl : b = x := by simpa using hx
      exact Text.isWordChar_of_isBlank (hw b List.mem_cons_self)
  exact ⟨Text.takeWhile_append hword hbehind, Text.dropWhile_append hword hbehind⟩

/-- **A mark, a minus sign and a call are refused at the parenthesis** of the call, since the name
of the function is read as that of a constant. -/
lemma formula_mark_call (h : σ) :
    ∃ s, formula env (.facing 0 ('$' :: '-' :: (name ++ (w ++ '(' :: cs))) 0 h) =
      .error (.malformed (2 + name.length + w.length) (.notOperator '(')) s := by
  obtain ⟨hrun, hbehind⟩ := span_of_call hname hw cs
  obtain ⟨c, tail, rfl, hc⟩ := Builtin.head_of_lower hname
  have hconstant := operand_mark_minus env env.maxDepth hc (tail ++ (w ++ '(' :: cs)) 0 0 h
  rw [← List.cons_append, hrun, hbehind] at hconstant
  rw [formula, bind_apply, chain_eq, bind_of_ok hconstant, links_blanks env _ _ hw,
    links_operator env _ _ (by decide) (by decide) (fun hcomma => by simp at hcomma), Nat.zero_add]
  exact ⟨_, rfl⟩

end

/-- **A minus sign and a letter must not touch a mark**: a text that is accepted with blanks between
them is refused without, at the parenthesis of the call that follows the sign. -/
lemma formula_mark_refused {w : List Char} (hw : Blanks w) (hne : w ≠ []) {c : Char}
    (hc : c.isAlpha = true) {cs : List Char} {h : σ} {v : Float} {s : Running σ}
    (hrun : formula env (.facing 0 ('$' :: (w ++ '-' :: c :: cs)) 0 h) = .ok v s) :
    ∃ gap rest t, Blanks gap ∧ (c :: cs).dropWhile Text.isWordChar = gap ++ '(' :: rest ∧
      formula env (.facing 0 ('$' :: '-' :: c :: cs) 0 h) =
        .error (.malformed (2 + ((c :: cs).takeWhile Text.isWordChar).length + gap.length)
          (.notOperator '(')) t := by
  obtain ⟨b, bs, rfl⟩ := List.exists_cons_of_ne_nil hne
  have hb : Text.isBlank b = true := hw b List.mem_cons_self
  have hfollows : FollowsOperand (b :: bs ++ '-' :: c :: cs) := by
    rintro _ ⟨⟩
    rw [endsOperand, hb, Bool.true_or]
  have htouch : MayTouch ['$'] (b :: bs ++ '-' :: c :: cs) := by
    refine .of_head fun hminus => ?_
    obtain rfl : b = '-' := by simpa using hminus
    exact absurd hb (by decide)
  rw [formula_mark env hw hfollows htouch] at hrun
  obtain ⟨y, t, hlinks, -⟩ := bind_eq_ok.mp hrun
  obtain ⟨f, name, gap, rest, hname, hgap, hcall⟩ := call_of_links env hc hlinks
  obtain ⟨hword, hbehind⟩ := span_of_call hname hgap rest
  obtain ⟨t, hrefused⟩ := formula_mark_call env hname hgap rest h
  rw [hcall, hword]
  exact ⟨gap, rest, t, hgap, hbehind, hrefused⟩

end Scanner

/-- **Two texts whose links agree come to the same**, but for the place of an error. -/
lemma eval_moved (e₁ e₂ : Evaluator) {env : Env ω σ} {host host' : σ} {t₁ t₂ : String} {k p : Nat}
    {x : Float} {rest : List Char}
    (h₁ : formula env (.facing 0 t₁.toList 0 host) =
      (links env env.maxDepth .whole x >>= fun r => pure r.1) (.facing (p + k) rest 0 host'))
    (h₂ : formula env (.facing 0 t₂.toList 0 host) =
      (links env env.maxDepth .whole x >>= fun r => pure r.1) (.facing p rest 0 host')) :
    (e₁.eval env t₁ host).1 = (e₂.eval env t₂ host).1.mapError (EvalError.movedBy k) ∧
      (e₁.eval env t₁ host).2 = (e₂.eval env t₂ host).2 := by
  rw [Evaluator.eval_eq, Evaluator.eval_eq, h₁, h₂, bind_apply, bind_apply]
  obtain ⟨y, s₁, s₂, hmoved, hplain, hhost⟩ | ⟨error, s₁, s₂, hmoved, hplain, hhost⟩ :=
    links_moved env env.maxDepth k p x rest host'
  · rw [hmoved, hplain]
    exact ⟨rfl, congrArg (Prod.mk _) hhost⟩
  · rw [hmoved, hplain]
    exact ⟨rfl, congrArg (Prod.mk _) hhost⟩

/-- **The blank between a mark and an operator changes nothing**: without it a text comes to the
same value, or to the same error one character earlier. Only a minus sign in front of a letter is
different. When it touches the mark it belongs to the name of a constant, with the word characters
behind it; and a text that is accepted with the blank is then refused, at the parenthesis that
follows these characters.

**Proof sketch.** In front of an operator the mark stands for the context, with the blank and
without it, and the links behind it do not depend on where they stand. In front of a minus sign and
a letter it does with the blank only. If that text is accepted, a call stands behind the minus sign,
and without the blank the name of its function is read as that of a constant. -/
theorem eval_mark_glued (e₁ e₂ : Evaluator) (env : Env ω σ) (host : σ) {op : Operator}
    {token : List Char} (htoken : token ∈ op.spellings) (r : String) :
    (¬ (token = ['-'] ∧ r.toList.head?.any Char.isAlpha = true) →
      (e₁.eval env ("$ " ++ String.ofList token ++ r) host).1 =
          (e₂.eval env ("$" ++ String.ofList token ++ r) host).1.mapError (EvalError.movedBy 1) ∧
        (e₁.eval env ("$ " ++ String.ofList token ++ r) host).2 =
          (e₂.eval env ("$" ++ String.ofList token ++ r) host).2) ∧
      (token = ['-'] ∧ r.toList.head?.any Char.isAlpha = true →
        let name := r.toList.takeWhile Text.isWordChar
        let behind := r.toList.dropWhile Text.isWordChar
        operand env env.maxDepth
            (.facing 0 ("$" ++ String.ofList token ++ r).toList 0 host) =
          .ok ((constant? (String.ofList ('-' :: Text.lowerName name)) env.tick).getD 0.0)
            (.facing (2 + name.length) behind 0 host) ∧
        ∀ v, (e₁.eval env ("$ " ++ String.ofList token ++ r) host).1 = .ok v →
          ∃ gap rest, Blanks gap ∧ behind = gap ++ '(' :: rest ∧
            (e₂.eval env ("$" ++ String.ofList token ++ r) host).1 =
              .error (.malformed (2 + name.length + gap.length) (.notOperator '('))) := by
  have hspaced : ("$ " ++ String.ofList token ++ r).toList =
      '$' :: ([' '] ++ (token ++ r.toList)) := by simp
  have hglued : ("$" ++ String.ofList token ++ r).toList =
      '$' :: ([] ++ (token ++ r.toList)) := by simp
  have hblank : Blanks [' '] := List.forall_mem_singleton.mpr (by decide)
  constructor
  · intro hname
    obtain ⟨c, tail, rfl, -, hends, -⟩ := Operator.head_of_mem_spellings htoken
    have hfollows : FollowsOperand ([] ++ (c :: tail ++ r.toList)) := by
      rintro _ ⟨⟩
      exact hends
    have hfollows' : FollowsOperand ([' '] ++ (c :: tail ++ r.toList)) := by
      rintro _ ⟨⟩
      decide
    have htouch : MayTouch ['$'] ([] ++ (c :: tail ++ r.toList)) := by
      rintro ⟨-, hminus, hletter⟩
      obtain rfl : c = '-' := by simpa using hminus
      obtain rfl := Operator.eq_of_minus htoken
      exact hname ⟨rfl, hletter⟩
    have hmark₁ := formula_mark env hblank hfollows' (.of_head (by simp)) host
    have hmark₂ := formula_mark env .nil hfollows htouch host
    rw [← hspaced] at hmark₁
    rw [← hglued] at hmark₂
    exact eval_moved (k := 1) (p := 1) e₁ e₂ hmark₁ hmark₂
  · rintro ⟨rfl, hletter⟩ name behind
    obtain ⟨c, hhead, hc⟩ := (Option.any_eq_true _ _).mp hletter
    obtain ⟨cs, hr⟩ := List.head?_eq_some_iff.mp hhead
    change _ = '$' :: '-' :: r.toList at hglued
    have hconstant := operand_mark_minus env env.maxDepth hc cs 0 0 host
    rw [← hr, ← hglued, Nat.zero_add] at hconstant
    refine ⟨hconstant, fun v hv => ?_⟩
    obtain ⟨s, hrun⟩ := Evaluator.eval_eq_ok_iff.mp hv
    rw [hr] at hspaced
    rw [hspaced] at hrun
    obtain ⟨gap, rest, t, hgap, hcall, hrefused⟩ := formula_mark_refused env hblank (by simp) hc hrun
    rw [← hr] at hcall hrefused
    refine ⟨gap, rest, hgap, hcall, ?_⟩
    rw [Evaluator.eval_eq, hglued, hrefused]

/-- On a number behind a minus sign, and on a call behind it. -/
theorem eval_mark_glued_minus :
    ['-'] ∈ Operator.sub.spellings ∧
      (Evaluator.blank.eval (.ofDocument (.number (.whole 7)) 128) "$ -1" 5).1 = .ok 6.0 ∧
      (Evaluator.blank.eval (.ofDocument (.number (.whole 7)) 128) "$ -1" 5).1 =
        (Evaluator.blank.eval (.ofDocument (.number (.whole 7)) 128) "$-1" 5).1.mapError
          (EvalError.movedBy 1) ∧
      (Evaluator.blank.eval (.ofDocument (.number (.whole 7)) 128) "$ -abs(1)" 5).1 = .ok 6.0 ∧
      (Evaluator.blank.eval (.ofDocument (.number (.whole 7)) 128) "$-abs(1)" 5).1 =
        .error (.malformed 5 (.notOperator '(')) := by
  have htoken : ['-'] ∈ Operator.sub.spellings := by decide
  have hcall : (Evaluator.blank.eval (.ofDocument (.number (.whole 7)) 128) "$ -abs(1)" 5).1 =
      .ok 6.0 := by decide +kernel
  obtain ⟨hnumber, -⟩ := eval_mark_glued .blank .blank (.ofDocument (.number (.whole 7)) 128)
    (5 : Generator) htoken "1"
  obtain ⟨-, hletter⟩ := eval_mark_glued .blank .blank (.ofDocument (.number (.whole 7)) 128)
    (5 : Generator) htoken "abs(1)"
  obtain ⟨gap, rest, hgap, hbehind, hrefused⟩ := (hletter (by decide)).2 _ hcall
  have hname : "abs(1)".toList.takeWhile Text.isWordChar = ['a', 'b', 's'] := by decide +kernel
  have hparenthesis : "abs(1)".toList.dropWhile Text.isWordChar = ['(', '1', ')'] := by
    decide +kernel
  rw [hname] at hrefused
  rw [hparenthesis] at hbehind
  cases gap with
  | nil => exact ⟨htoken, by decide +kernel, (hnumber (by decide)).1, hcall, hrefused⟩
  | cons b bs =>
    obtain ⟨rfl, -⟩ := List.cons.inj hbehind
    exact absurd (hgap '(' List.mem_cons_self) (by decide)

/-- **A minus sign must not be glued to a mark in front of a call**: seven less the absolute value
of one is six, and without the blank the parenthesis is out of place. -/
theorem eval_mark_not_glued :
    ['-'] ∈ Operator.sub.spellings ∧
      (Evaluator.blank.eval (.ofDocument (.number (.whole 7)) 128)
        ("$ " ++ String.ofList ['-'] ++ "abs(1)") (5 : Generator)).1 = .ok 6.0 ∧
      (Evaluator.blank.eval (.ofDocument (.number (.whole 7)) 128)
        ("$" ++ String.ofList ['-'] ++ "abs(1)") (5 : Generator)).1 =
          .error (.malformed 5 (.notOperator '(')) := by
  refine ⟨by decide, ?_, ?_⟩
  · decide +kernel
  · decide +kernel

end Formula
