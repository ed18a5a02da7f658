import Formula.Proofs.Lexical.References
import Formula.Proofs.Neighbours
import Formula.Proofs.Steps

set_option relaxedAutoImplicit false
set_option autoImplicit false

/-!
# Completeness

Every text of an expression is evaluated to what the expression means, if it nests no deeper than
evaluation may; if it nests deeper, evaluation stops for want of levels and for no other reason. An
operand is read up to its end, but for blanks in front of a closing parenthesis, and the links of a
chain go on behind it from the value so far.

## Main definitions

* `Formula.Scanner.Guarded` — runs over something that nests so deep.
* `Formula.Operand.Reads`, `Formula.Chain.Reads`, `Formula.Links.Reads` — how a part of a formula is
  read in front of anything that may follow it.

## Main results

* `Formula.Chain.reads` — chains are read as they mean.
* `Formula.eval_written` — evaluation is complete.
-/

namespace Formula

variable {ω σ α β : Type}

/-! ## Runs that need levels -/

namespace Scanner

variable (env : Env ω σ)

/-- **A run over something that nests so deep**: with levels enough it ends as `done` tells, and
otherwise it stops for want of them. -/
def Guarded (nesting levels : Nat) (done : EStateM.Result EvalError (Running σ) α → Prop)
    (r : EStateM.Result EvalError (Running σ) α) : Prop :=
  (nesting ≤ levels → done r) ∧
    (levels < nesting → ∃ s, r = .error (.tooDeep env.maxDepth) s)

/-- **A run gives a value** and stands in a state, but for the blanks ahead. -/
def Gives (x : α) (s : Running σ) (r : EStateM.Result EvalError (Running σ) α) : Prop :=
  ∃ t, r = .ok x t ∧ t.settle = s.settle

namespace Guarded

variable {env} {n n' levels : Nat} {done : EStateM.Result EvalError (Running σ) α → Prop}
  {done' : EStateM.Result EvalError (Running σ) β → Prop}

/-- What needs no levels is guarded. -/
lemma zero {r : EStateM.Result EvalError (Running σ) α} (h : done r) :
    Guarded env 0 levels done r :=
  ⟨fun _ => h, fun hlt => absurd hlt (Nat.not_lt_zero _)⟩

/-- What a run ends as may be told in another way. -/
protected lemma imp {r : EStateM.Result EvalError (Running σ) α} (h : Guarded env n levels done r)
    {done' : EStateM.Result EvalError (Running σ) α → Prop} (himp : done r → done' r) :
    Guarded env n levels done' r :=
  ⟨fun hle => himp (h.1 hle), h.2⟩

/-- **A sequence needs the levels of both of its parts.** -/
protected lemma bind {m : Scanner σ α} {f : α → Scanner σ β} {s : Running σ} {x : α}
    {P : Running σ → Prop} (hm : Guarded env n levels (fun r => ∃ t, r = .ok x t ∧ P t) (m s))
    (hf : ∀ t, P t → Guarded env n' levels done' (f x t)) :
    Guarded env (max n n') levels done' ((m >>= f) s) := by
  constructor
  · intro hle
    obtain ⟨t, ht, hP⟩ := hm.1 (by omega)
    rw [bind_of_ok ht]
    exact (hf t hP).1 (by omega)
  · intro hlt
    by_cases hn : n ≤ levels
    · obtain ⟨t, ht, hP⟩ := hm.1 hn
      rw [bind_of_ok ht]
      exact (hf t hP).2 (by omega)
    · obtain ⟨t, ht⟩ := hm.2 (by omega)
      exact ⟨t, bind_of_error ht f⟩

/-- The same where the first part ends in a known state. -/
lemma bind_of_eq {m : Scanner σ α} {f : α → Scanner σ β} {s t : Running σ} {x : α}
    (hm : Guarded env n levels (· = .ok x t) (m s))
    (hf : Guarded env n' levels done' (f x t)) :
    Guarded env (max n n') levels done' ((m >>= f) s) := by
  have hm' : Guarded env n levels (fun r => ∃ u, r = .ok x u ∧ u = t) (m s) :=
    hm.imp fun h => ⟨t, h, rfl⟩
  refine hm'.bind ?_
  rintro _ rfl
  exact hf

/-- The second part of a sequence may need no levels. -/
lemma bind_zero {m : Scanner σ α} {f : α → Scanner σ β} {s t : Running σ} {x : α}
    (hm : Guarded env n levels (· = .ok x t) (m s)) (hf : done' (f x t)) :
    Guarded env n levels done' ((m >>= f) s) := by
  have hzero : Guarded env 0 levels done' (f x t) := zero hf
  have h := hm.bind_of_eq hzero
  rwa [Nat.max_zero] at h

/-- Computing with a value needs no levels. -/
protected lemma map {m : Scanner σ α} {s : Running σ} {x : α} {P : Running σ → Prop}
    (hm : Guarded env n levels (fun r => ∃ t, r = .ok x t ∧ P t) (m s)) (f : α → β) :
    Guarded env n levels (fun r => ∃ t, r = .ok (f x) t ∧ P t)
      ((m >>= fun x => pure (f x)) s) := by
  have hzero (t : Running σ) (ht : P t) : Guarded env 0 levels
      (fun r => ∃ t, r = .ok (f x) t ∧ P t) ((pure (f x) : Scanner σ β) t) := zero ⟨t, rfl, ht⟩
  have h := hm.bind (f := fun x => pure (f x)) hzero
  rwa [Nat.max_zero] at h

/-- **What is nested needs one level more.** -/
protected lemma nested {body : Scanner σ Float → Scanner σ α} {s : Running σ}
    (h : ∀ l, Guarded env n l done (body (operand env l) s)) :
    Guarded env (n + 1) levels done (nested env (level env levels) body s) := by
  cases levels with
  | zero => exact ⟨fun hle => absurd hle (by omega), fun _ => ⟨s, rfl⟩⟩
  | succ l => exact ⟨fun hle => (h l).1 (by omega), fun hlt => (h l).2 (by omega)⟩

/-- One argument is enough for a function that takes one. -/
lemma arguments_one {f : Builtin} (hf : f.arity ≠ .two) {one : Scanner σ Float} {s t : Running σ}
    {x : Float} (hx : Guarded env n levels (· = .ok (x, true) t) (argument one s)) :
    Guarded env n levels (· = .ok (.one x) t) (arguments f one s) := by
  rw [arguments_eq]
  refine hx.bind_zero ?_
  rw [furtherArguments, Builtin.take_last hf]
  rfl

/-- A second argument is read behind a comma for a function that takes two. -/
lemma arguments_two {f : Builtin} (hf : f.arity ≠ .one) {one : Scanner σ Float}
    {s t u : Running σ} {x y : Float}
    (hx : Guarded env n levels (· = .ok (x, false) t) (argument one s))
    (hy : Guarded env n' levels (· = .ok (y, true) u) (argument one t)) :
    Guarded env (max n n') levels (· = .ok (.two x y) u) (arguments f one s) := by
  rw [arguments_eq]
  refine hx.bind_of_eq ?_
  rw [furtherArguments, Builtin.take_more hf]
  exact hy.bind_zero rfl

/-- **A call needs one level more than its arguments.** -/
lemma applied {f : Builtin} {args : Arguments} (hadmits : f.arity.admits args = true)
    {s t : Running σ} (h : ∀ l, Guarded env n l (· = .ok args t) (arguments f (operand env l) s)) :
    Guarded env (n + 1) levels
      (· = .ok ((f.call env.random args t.host).1.getD 0.0)
        { t with host := (f.call env.random args t.host).2 })
      (applied env (level env levels) f s) :=
  (Guarded.nested h).bind_zero (invoke_apply env hadmits t)

end Guarded

end Scanner

open Scanner

/-! ## How parts are read -/

variable (env : Env ω σ)

/-- **An operand is read from a text** in front of whatever may follow it, with its meaning. -/
def Operand.Reads (e : Operand) (t : List Char) : Prop :=
  ∀ (last : Bool) (levels : Nat) (rest : List Char) (p d : Nat) (h : σ), e.WellFormed last →
    FollowsOperand rest → MayTouch t rest → (last = true → Closes rest) →
    Guarded env e.nesting levels
      (Gives (e.meaning env h).1 (.facing (p + t.length) rest d (e.meaning env h).2))
      (operand env levels (.facing p (t ++ rest) d h))

/-- **A chain is read from a text** up to its end, where no links are left. -/
def Chain.Reads (x : Chain) (t : List Char) : Prop :=
  ∀ (last : Bool) (levels : Nat) (scope : Scope) (rest : List Char) (p d : Nat) (h : σ),
    x.WellFormed last → FollowsOperand rest → MayTouch t rest → (last = true → Closes rest) →
    Guarded env x.nesting levels
      (· = links env levels scope (x.meaning env h).1
        (.facing (p + t.length) rest d (x.meaning env h).2))
      (chain (operand env levels) scope (.facing p (t ++ rest) d h))

/-- **Links are read from a text**, behind an operand or links with a value so far. -/
def Links.Reads (r : Links) (t : List Char) : Prop :=
  ∀ (last : Bool) (levels : Nat) (scope : Scope) (value : Float) (rest : List Char) (p d : Nat)
    (h : σ), r.WellFormed last → FollowsOperand rest → MayTouch t rest →
    (last = true → Closes rest) →
    Guarded env r.nesting levels
      (· = links env levels scope (r.meaning env value h).1
        (.facing (p + t.length) rest d (r.meaning env value h).2))
      (links env levels scope value (.facing p (t ++ rest) d h))

variable {env}

/-! ## Operands without parts -/

/-- Nothing that stands before a reading operand matters when it is a blank. -/
lemma Operand.Reads.blank {c : Char} {e : Operand} {t : List Char} (hc : Text.isBlank c = true)
    (he : e.Reads env t) : e.Reads env (c :: t) := by
  intro last levels rest p d h hwf hrest htouch hlast
  rw [List.cons_append, ← operand_settle, Running.settle_facing_cons hc, operand_settle,
    position_cons]
  exact he last levels rest (p + 1) d h hwf hrest htouch.of_cons hlast

/-- Literals are read. -/
lemma Operand.reads_literal (whole : List Char) (fraction : Option (List Char)) :
    (Operand.literal whole fraction).Reads env (Literal.text whole fraction) := by
  intro last levels rest p d h hwf hrest _ _
  refine .zero ⟨_, ?_, rfl⟩
  obtain ⟨c, cs, htext, hc⟩ : ∃ c cs, Literal.text whole fraction = c :: cs ∧ c.isDigit = true := by
    obtain ⟨c, cs, rfl⟩ := List.exists_cons_of_ne_nil hwf.1
    have hc : c.isDigit = true := hwf.2.1 c List.mem_cons_self
    cases fraction with
    | none => exact ⟨c, cs, rfl, hc⟩
    | some digits => exact ⟨c, _, rfl, hc⟩
  have hnumber := number_text (σ := σ) hwf hrest p d h
  rw [htext, List.cons_append] at hnumber ⊢
  rw [operand_digit env levels _ _ _ _ hc, hnumber]
  rfl

/-- References are read. -/
lemma Operand.reads_reference (target : Reference) :
    (Operand.reference target).Reads env ('$' :: target.text) := by
  intro last levels rest p d h hwf hrest htouch _
  refine .zero ⟨_, ?_, rfl⟩
  rw [List.cons_append, operand_mark, reference_text env hwf hrest htouch, position_cons]
  rfl

/-- An operand that is left out is read in front of a closing parenthesis. -/
lemma Operand.reads_empty : Operand.empty.Reads env [] := by
  intro last levels rest p d h hwf _ _ hlast
  obtain ⟨w, cs, hw, rfl⟩ := hlast hwf
  refine .zero ⟨(Running.facing p (w ++ ')' :: cs) d h).settle, ?_, Running.settle_settle _⟩
  have hclose : ∀ c ∈ (')' :: cs).head?, Text.isBlank c = false := by
    rintro _ ⟨⟩
    decide
  rw [List.nil_append, ← operand_settle, Running.settle_blanks hw,
    Running.settle_facing_of_head hclose, operand_close]
  rfl

/-! ## Operands with parts -/

/-- An operand behind a plus sign is read one level deeper. -/
lemma Operand.Reads.plus {e : Operand} {t : List Char} (he : e.Reads env t) :
    (Operand.sign false e).Reads env ('+' :: t) := by
  intro last levels rest p d h hwf hrest htouch hlast
  rw [List.cons_append, operand_plus, position_cons]
  exact .nested fun l => he last l rest (p + 1) d h hwf hrest htouch.of_cons hlast

/-- An operand behind a minus sign is read one level deeper and negated. -/
lemma Operand.Reads.minus {e : Operand} {t : List Char} (he : e.Reads env t) :
    (Operand.sign true e).Reads env ('-' :: t) := by
  intro last levels rest p d h hwf hrest htouch hlast
  rw [List.cons_append, operand_minus, position_cons]
  have hnested : Guarded env (e.nesting + 1) levels
      (Gives (e.meaning env h).1 (.facing (p + 1 + t.length) rest d (e.meaning env h).2))
      (nested env (level env levels) id (.facing (p + 1) (t ++ rest) d h)) :=
    .nested fun l => he last l rest (p + 1) d h hwf hrest htouch.of_cons hlast
  exact hnested.map fun x => -x

namespace Chain.Reads

variable {x : Chain} {t : List Char} (hx : x.Reads env t)

include hx

/-- A chain ends with a closing parenthesis. -/
lemma close (hwf : x.WellFormed true) (levels : Nat) (scope : Scope) (p : Nat) (cs : List Char)
    (d : Nat) (h : σ) :
    Guarded env x.nesting levels
      (· = .ok ((x.meaning env h).1, .close)
        (.facing (p + t.length + 1) cs d (x.meaning env h).2))
      (chain (operand env levels) scope (.facing p (t ++ ')' :: cs) (d + 1) h)) := by
  refine (hx true levels scope (')' :: cs) p (d + 1) h hwf (.close cs) (.of_head (by simp))
    fun _ => .close cs).imp ?_
  intro hrun
  rw [hrun, links_close]
  rfl

/-- An argument ends with a closing parenthesis when it is the last one. -/
lemma argument_close (hwf : x.WellFormed true) (levels p : Nat) (cs : List Char) (d : Nat)
    (h : σ) :
    Guarded env x.nesting levels
      (· = .ok ((x.meaning env h).1, true)
        (.facing (p + t.length + 1) cs d (x.meaning env h).2))
      (argument (operand env levels) (.facing p (t ++ ')' :: cs) (d + 1) h)) :=
  (close hx hwf levels .argument p cs d h).bind_zero rfl

/-- An argument ends with a comma when another one follows. -/
lemma argument_comma (hwf : x.WellFormed false) (levels p : Nat) (cs : List Char) (d : Nat)
    (h : σ) :
    Guarded env x.nesting levels
      (· = .ok ((x.meaning env h).1, false)
        (.facing (p + t.length + 1) cs d (x.meaning env h).2))
      (argument (operand env levels) (.facing p (t ++ ',' :: cs) d h)) := by
  have hchain : Guarded env x.nesting levels
      (· = .ok ((x.meaning env h).1, .comma)
        (.facing (p + t.length + 1) cs d (x.meaning env h).2))
      (chain (operand env levels) .argument (.facing p (t ++ ',' :: cs) d h)) := by
    have hlast (h : false = true) : Closes (',' :: cs) := absurd h Bool.false_ne_true
    refine (hx false levels .argument (',' :: cs) p d h hwf (.comma cs) (.of_head (by simp))
      hlast).imp ?_
    intro hrun
    rw [hrun, links_comma]
  exact hchain.bind_zero rfl

end Chain.Reads

/-- Groups are read one level deeper. -/
lemma Operand.Reads.group {x : Chain} {t : List Char} (hx : x.Reads env t) :
    (Operand.group x).Reads env ('(' :: t ++ [')']) := by
  intro last levels rest p d h hwf _ _ _
  have hlength : p + ('(' :: t ++ [')']).length = p + 1 + t.length + 1 := by
    simp only [List.length_append, List.length_cons, List.length_nil]
    omega
  have htext : '(' :: t ++ [')'] ++ rest = '(' :: (t ++ ')' :: rest) := by simp
  rw [hlength, htext, operand_open]
  have hnested : Guarded env (x.nesting + 1) levels
      (· = .ok ((x.meaning env h).1, .close)
        (.facing (p + 1 + t.length + 1) rest d (x.meaning env h).2))
      (nested env (level env levels) (fun one => chain one .group)
        (.facing (p + 1) (t ++ ')' :: rest) (d + 1) h)) :=
    .nested fun l => hx.close hwf l .group (p + 1) rest d h
  exact hnested.bind_zero ⟨_, rfl, rfl⟩

/-- Calls with one argument are read one level deeper. -/
lemma Operand.Reads.callOne {f : Builtin} {x : Chain} {name w t : List Char}
    (hname : Text.lower name = f.name.toList) (hw : Blanks w) (hx : x.Reads env t) :
    (Operand.callOne f x).Reads env (name ++ w ++ '(' :: t ++ [')']) := by
  intro last levels rest p d h hwf _ _ _
  obtain ⟨harity, hwfx⟩ := hwf
  have hlength : p + (name ++ w ++ '(' :: t ++ [')']).length =
      p + name.length + w.length + 1 + t.length + 1 := by
    simp only [List.length_append, List.length_cons, List.length_nil]
    omega
  have htext : name ++ w ++ '(' :: t ++ [')'] ++ rest =
      name ++ (w ++ '(' :: (t ++ ')' :: rest)) := by simp
  rw [hlength, htext, operand_call env levels _ _ _ _ hname hw]
  have hargs (l : Nat) : Guarded env x.nesting l
      (· = .ok (.one (x.meaning env h).1)
        (.facing (p + name.length + w.length + 1 + t.length + 1) rest d (x.meaning env h).2))
      (arguments f (operand env l)
        (.facing (p + name.length + w.length + 1) (t ++ ')' :: rest) (d + 1) h)) :=
    .arguments_one harity (hx.argument_close hwfx l _ rest d h)
  exact (Guarded.applied (admits_one harity _) hargs).imp fun hrun => ⟨_, hrun, rfl⟩

/-- Calls with two arguments are read one level deeper. -/
lemma Operand.Reads.callTwo {f : Builtin} {x y : Chain} {name w t u : List Char}
    (hname : Text.lower name = f.name.toList) (hw : Blanks w) (hx : x.Reads env t)
    (hy : y.Reads env u) :
    (Operand.callTwo f x y).Reads env (name ++ w ++ '(' :: t ++ ',' :: u ++ [')']) := by
  intro last levels rest p d h hwf _ _ _
  obtain ⟨harity, hwfx, hwfy⟩ := hwf
  have hlength : p + (name ++ w ++ '(' :: t ++ ',' :: u ++ [')']).length =
      p + name.length + w.length + 1 + t.length + 1 + u.length + 1 := by
    simp only [List.length_append, List.length_cons, List.length_nil]
    omega
  have htext : name ++ w ++ '(' :: t ++ ',' :: u ++ [')'] ++ rest =
      name ++ (w ++ '(' :: (t ++ ',' :: (u ++ ')' :: rest))) := by simp
  rw [hlength, htext, operand_call env levels _ _ _ _ hname hw]
  have hargs (l : Nat) : Guarded env (max x.nesting y.nesting) l
      (· = .ok (.two (x.meaning env h).1 (y.meaning env (x.meaning env h).2).1)
        (.facing (p + name.length + w.length + 1 + t.length + 1 + u.length + 1) rest d
          (y.meaning env (x.meaning env h).2).2))
      (arguments f (operand env l)
        (.facing (p + name.length + w.length + 1) (t ++ ',' :: (u ++ ')' :: rest)) (d + 1) h)) :=
    .arguments_two harity (hx.argument_comma hwfx l _ _ (d + 1) h)
      (hy.argument_close hwfy l _ rest d _)
  exact (Guarded.applied (admits_two harity _ _) hargs).imp fun hrun => ⟨_, hrun, rfl⟩

/-! ## Chains -/

/-- Blanks are read as no links at all. -/
lemma Links.reads_nil {w : List Char} (hw : Blanks w) : Links.nil.Reads env w := by
  intro last levels scope value rest p d h _ _ _ _
  exact .zero (links_blanks env levels scope hw value p rest d h)

/-- **An operand is read in front of links**, and behind it their rest goes on. -/
lemma Operand.Reads.links {last : Bool} {e : Operand} {r : Links} {t u : List Char}
    (he : e.Reads env t) (hwf : e.WellFormed (last && r.isNil)) (hr : Links.Written r u)
    (htouch : MayTouch t u) {rest : List Char} (hrest : FollowsOperand rest)
    (hbehind : MayTouch (t ++ u) rest) (hlast : last = true → Closes rest) (levels p d : Nat)
    (h : σ) :
    Guarded env e.nesting levels
      (Gives (e.meaning env h).1 (.facing (p + t.length) (u ++ rest) d (e.meaning env h).2))
      (operand env levels (.facing p (t ++ (u ++ rest)) d h)) :=
  he _ levels (u ++ rest) p d h hwf (hr.followsOperand hrest) (htouch.append hrest hbehind)
    (hr.closes hlast)

/-- A link is read, and the links behind it from the value that it makes. -/
lemma Links.Reads.cons {op : Operator} {e : Operand} {r : Links} {w token t u : List Char}
    (hw : Blanks w) (htoken : token ∈ op.spellings) (he : e.Reads env t)
    (ht : Operand.Written e t) (hr : Links.Written r u) (hru : r.Reads env u)
    (htouch : MayTouch t u) : (Links.cons op e r).Reads env (w ++ token ++ t ++ u) := by
  intro last levels scope value rest p d h hwf hrest hbehind hlast
  obtain ⟨hwfe, hwfr⟩ := hwf
  have hbehind' : MayTouch (t ++ u) rest := by
    rw [List.append_assoc] at hbehind
    exact hbehind.of_append_left
  obtain ⟨c, tail, rfl, hblank, -, hclose, hcomma⟩ := Operator.head_of_mem_spellings htoken
  have hlength : p + (w ++ c :: tail ++ t ++ u).length =
      p + w.length + (c :: tail).length + t.length + u.length := by
    simp only [List.length_append]
    omega
  have htext : w ++ c :: tail ++ t ++ u ++ rest = w ++ c :: (tail ++ (t ++ (u ++ rest))) := by
    simp
  have hfollows : FollowsOperator (t ++ (u ++ rest)) := ht.followsOperator hwfe (hr.closes hlast)
  have hoperator := operator_spelling htoken hfollows (p + w.length) d h
  rw [List.cons_append] at hoperator
  rw [hlength, htext, links_blanks env levels scope hw,
    links_operator env levels scope hblank hclose (fun hc => hcomma hc.1), bind_of_ok hoperator]
  refine (he.links hwfe hr htouch hrest hbehind' hlast levels _ d h).bind fun s hs => ?_
  rw [links_congr env levels scope hs]
  exact hru last levels scope _ rest _ d _ hwfr hrest hbehind'.of_append_left hlast

/-- A chain is read as its first operand and the links behind it. -/
lemma Chain.Reads.mk {e : Operand} {r : Links} {t u : List Char} (he : e.Reads env t)
    (hr : Links.Written r u) (hru : r.Reads env u) (htouch : MayTouch t u) :
    (Chain.mk e r).Reads env (t ++ u) := by
  intro last levels scope rest p d h hwf hrest hbehind hlast
  obtain ⟨hwfe, hwfr⟩ := hwf
  rw [List.append_assoc, chain_eq]
  refine (he.links hwfe hr htouch hrest hbehind hlast levels p d h).bind fun s hs => ?_
  rw [links_congr env levels scope hs, List.length_append, ← Nat.add_assoc]
  exact hru last levels scope _ rest _ d _ hwfr hrest hbehind.of_append_left hlast

/-! ## Whole texts -/

mutual

/-- **Every text of an operand is read as the operand**, by induction on how it is written. -/
theorem Operand.reads {e : Operand} {t : List Char} : Operand.Written e t → e.Reads env t
  | .blank hc h => (Operand.reads h).blank hc
  | .whole digits => Operand.reads_literal digits none
  | .point digits fraction => Operand.reads_literal digits (some fraction)
  | .reference target => Operand.reads_reference target
  | .plus h => (Operand.reads h).plus
  | .minus h => (Operand.reads h).minus
  | .group h => .group (Chain.reads h)
  | .callOne hname hw h => .callOne hname hw (Chain.reads h)
  | .callTwo hname hw hx hy => .callTwo hname hw (Chain.reads hx) (Chain.reads hy)
  | .empty => Operand.reads_empty

/-- **Every text of a chain is read as the chain.** -/
theorem Chain.reads {x : Chain} {t : List Char} : Chain.Written x t → x.Reads env t
  | .mk he hr htouch => .mk (Operand.reads he) hr (Links.reads hr) htouch

/-- Every text of links is read as the links. -/
theorem Links.reads {r : Links} {t : List Char} : Links.Written r t → r.Reads env t
  | .nil hw => Links.reads_nil hw
  | .cons hw htoken he hr htouch =>
    .cons hw htoken (Operand.reads he) he hr (Links.reads hr) htouch

end

/-- **A whole text is read as the chain that it writes**, or stops for want of levels. -/
theorem formula_written {x : Chain} {text : List Char} (htext : Chain.Written x text)
    (hwf : x.WellFormed false) (env : Env ω σ) (host : σ) :
    Guarded env x.nesting env.maxDepth
      (· = .ok (x.meaning env host).1
        (.facing text.length [] 0 (x.meaning env host).2))
      (formula env (.facing 0 text 0 host)) := by
  have hchain : Guarded env x.nesting env.maxDepth
      (· = .ok ((x.meaning env host).1, .text) (.facing text.length [] 0 (x.meaning env host).2))
      (chain (operand env env.maxDepth) .whole (.facing 0 text 0 host)) := by
    have hreads : x.Reads env text := Chain.reads htext
    have hlast (h : false = true) : Closes [] := absurd h Bool.false_ne_true
    have h := hreads false env.maxDepth .whole [] 0 0 host hwf .nil (.of_head (by simp)) hlast
    rw [List.append_nil, Nat.zero_add] at h
    refine h.imp fun hrun => ?_
    rw [hrun, links_nil]
    rfl
  exact hchain.bind_zero rfl

/-- **Evaluation is complete**: each text of an expression that can be written and nests no deeper
than evaluation may is evaluated to what the expression means.

**Proof sketch.** The whole text is a chain with nothing behind it. It is read up to the end of the
text with its meaning as the value so far, and there the links end. -/
theorem eval_written (e : Evaluator) (env : Env ω σ) (host : σ) {x : Chain} {text : String}
    (htext : Chain.Written x text.toList) (hwf : x.WellFormed false)
    (hnesting : x.nesting ≤ env.maxDepth) :
    e.eval env text host =
      (.ok (x.meaning env host).1, Evaluator.blank, (x.meaning env host).2) := by
  rw [Evaluator.eval_eq, (formula_written htext hwf env host).1 hnesting]

/-- On a text with blanks, capital letters, a reference and one level of nesting. -/
theorem eval_written_product :
    Evaluator.blank.eval (.ofDocument (.bool true) 1) "2 * SQRT($)" 5 =
      (.ok ((2 : UInt64).toFloat * Float.sqrt 1.0), .blank, 5) := by
  let x : Chain := .mk (.reference .context) .nil
  let y : Chain := .mk (.literal ['2'] none) (.cons .mul (.callOne .sqrt x) .nil)
  have hend : Links.Written .nil [] := .nil .nil
  have hx : Chain.Written x ['$'] := .mk (.reference .context) hend (by simp [MayTouch])
  have hblank : Blanks [' '] := by simp [Blanks, Text.isBlank]
  have hcall : Operand.Written (.callOne .sqrt x) [' ', 'S', 'Q', 'R', 'T', '(', '$', ')'] :=
    .blank (by decide)
      (@Operand.Written.callOne .sqrt x ['S', 'Q', 'R', 'T'] [] _ (by decide) .nil hx)
  have hlinks : Links.Written (.cons .mul (.callOne .sqrt x) .nil)
      [' ', '*', ' ', 'S', 'Q', 'R', 'T', '(', '$', ')'] :=
    @Links.Written.cons .mul _ _ _ ['*'] _ _ hblank (by decide) hcall hend (by simp [MayTouch])
  have hy : Chain.Written y "2 * SQRT($)".toList := by
    have h := Chain.Written.mk (.whole ['2']) hlinks (by simp [MayTouch])
    exact h
  have hwf : y.WellFormed false :=
    ⟨⟨by decide, by simp, by simp, by decide⟩, ⟨by decide, trivial, trivial⟩, trivial⟩
  exact eval_written .blank (.ofDocument (.bool true) 1) 5 hy hwf (by decide)

/-- **Levels are the only thing that may be missing**: a text of an expression that nests deeper
than evaluation may is refused for that. -/
theorem eval_written_of_lt (e : Evaluator) (env : Env ω σ) (host : σ) {x : Chain} {text : String}
    (htext : Chain.Written x text.toList) (hwf : x.WellFormed false)
    (hnesting : env.maxDepth < x.nesting) :
    (e.eval env text host).1 = .error (.tooDeep env.maxDepth) := by
  obtain ⟨s, hs⟩ := (formula_written htext hwf env host).2 hnesting
  rw [Evaluator.eval_eq, hs]

end Formula
