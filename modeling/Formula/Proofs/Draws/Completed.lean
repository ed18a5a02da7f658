import Formula.Proofs.FailFast
import Formula.Proofs.Soundness

set_option relaxedAutoImplicit false
set_option autoImplicit false

/-!
# Completed calls

The calls that are completed while an expression is evaluated, in the order in which their closing
parentheses stand in its text. A call is completed behind its arguments, so the calls in them come
before it; what an operator makes of its operands has no influence on the calls in either of them.
Only completed calls draw random numbers, each at most one, and nothing else does.

## Main definitions

* `Formula.Completed`, `Formula.Completed.draw?` — a completed call, and what it draws.
* `Formula.Operand.Completes`, `Formula.Chain.Completes` — the calls that an expression completes.
* `Formula.Chain.functions` — the functions of all calls in an expression.
* `Formula.InOrder` — calls in the order of their closing parentheses.
* `Formula.Draws` — what a computation on a host draws.

## Main results

* `Formula.Chain.Completes.functions` — all calls are completed.
* `Formula.Chain.Completes.inOrder` — calls are completed in the order of their parentheses.
* `Formula.Chain.Completes.draws` — what an expression draws is what its completed calls draw.
-/

namespace Formula

variable {ω σ α β : Type}

/-! ## Calls -/

/-- **A completed call**: where its closing parenthesis stands, its function, and the arguments that
the function has been applied to. -/
structure Completed where
  /-- How many characters stand before the closing parenthesis. -/
  close : Nat
  /-- The function. -/
  function : Builtin
  /-- The values of its arguments. -/
  arguments : Arguments

/-- **What a completed call draws**: with one argument from zero to it, with two from the first to
the second. -/
def Completed.draw? (c : Completed) : Option HostCall :=
  match c.function, c.arguments with
  | .rand, .one max => some (.uniform 0.0 max)
  | .rand, .two min max => some (.uniform min max)
  | .randint, .one max => some (.integer 0 max.toInt64)
  | .randint, .two min max => some (.integer min.toInt64 max.toInt64)
  | _, _ => none

/-- **Each call of a random function draws**, and no other call does. -/
theorem Completed.isSome_draw?_iff (c : Completed) :
    c.draw?.isSome = true ↔ c.function = .rand ∨ c.function = .randint := by
  obtain ⟨close, f, args⟩ := c
  cases f <;> cases args <;> simp [draw?]

/-- **The draws of calls**, in their order. -/
def draws (calls : List Completed) : List HostCall :=
  calls.filterMap Completed.draw?

/-- The draws of two lists of calls are those of one and then of the other. -/
@[simp] lemma draws_append (cs ds : List Completed) : draws (cs ++ ds) = draws cs ++ draws ds :=
  List.filterMap_append

/-- **A call up to its parenthesis**: the name of a function in any letter case, blanks, and the
parenthesis. -/
def Builtin.Opening (f : Builtin) (text : List Char) : Prop :=
  ∃ name w, Text.lower name = f.name.toList ∧ Blanks w ∧ text = name ++ w ++ ['(']

/-! ## The calls that an expression completes -/

/-- Operands in which no call can stand. -/
def Operand.IsPlain : Operand → Prop
  | literal _ _ => True
  | reference _ => True
  | empty => True
  | _ => False

mutual

/-- **The calls that an operand completes**, whose text starts at a position: first those in its
arguments, each of which finds the host as the one before it has left it, and then itself. -/
inductive Operand.Completes (env : Env ω σ) :
    Nat → Operand → List Char → σ → List Completed → Prop where
  /-- Literals, references and operands that are left out. -/
  | plain {p : Nat} {e : Operand} {t : List Char} {h : σ} :
      e.IsPlain → Operand.Written e t → Operand.Completes env p e t h []
  /-- A blank before an operand. -/
  | blank {p : Nat} {c : Char} {e : Operand} {t : List Char} {h : σ} {cs : List Completed} :
      Text.isBlank c = true → Operand.Completes env (p + 1) e t h cs →
      Operand.Completes env p e (c :: t) h cs
  /-- A plus sign. -/
  | plus {p : Nat} {e : Operand} {t : List Char} {h : σ} {cs : List Completed} :
      Operand.Completes env (p + 1) e t h cs →
      Operand.Completes env p (.sign false e) ('+' :: t) h cs
  /-- A minus sign. -/
  | minus {p : Nat} {e : Operand} {t : List Char} {h : σ} {cs : List Completed} :
      Operand.Completes env (p + 1) e t h cs →
      Operand.Completes env p (.sign true e) ('-' :: t) h cs
  /-- A group. -/
  | group {p : Nat} {x : Chain} {t : List Char} {h : σ} {cs : List Completed} :
      Chain.Completes env (p + 1) x t h cs →
      Operand.Completes env p (.group x) ('(' :: t ++ [')']) h cs
  /-- A call with one argument. -/
  | callOne {p : Nat} {f : Builtin} {x : Chain} {o t : List Char} {h : σ} {cs : List Completed} :
      f.Opening o → Chain.Completes env (p + o.length) x t h cs →
      Operand.Completes env p (.callOne f x) (o ++ t ++ [')']) h
        (cs ++ [⟨p + (o ++ t).length, f, .one (x.meaning env h).1⟩])
  /-- A call with two arguments. -/
  | callTwo {p : Nat} {f : Builtin} {x y : Chain} {o t u : List Char} {h : σ}
      {cs ds : List Completed} :
      f.Opening o → Chain.Completes env (p + o.length) x t h cs →
      Chain.Completes env (p + (o ++ t ++ [',']).length) y u (x.meaning env h).2 ds →
      Operand.Completes env p (.callTwo f x y) (o ++ t ++ [','] ++ u ++ [')']) h
        (cs ++ ds ++ [⟨p + (o ++ t ++ [','] ++ u).length, f,
          .two (x.meaning env h).1 (y.meaning env (x.meaning env h).2).1⟩])

/-- **The calls that a chain completes**: those of its first operand, and then those behind it. -/
inductive Chain.Completes (env : Env ω σ) :
    Nat → Chain → List Char → σ → List Completed → Prop where
  /-- An operand and the links behind it. -/
  | mk {p : Nat} {e : Operand} {r : Links} {t u : List Char} {h : σ} {cs ds : List Completed} :
      Operand.Completes env p e t h cs →
      Links.Completes env (p + t.length) r u (e.meaning env h).2 ds → MayTouch t u →
      Chain.Completes env p (.mk e r) (t ++ u) h (cs ++ ds)

/-- The calls that links complete: neither the operators nor the value of what stands before them
has an influence. -/
inductive Links.Completes (env : Env ω σ) :
    Nat → Links → List Char → σ → List Completed → Prop where
  /-- Blanks at the end of a chain. -/
  | nil {p : Nat} {w : List Char} {h : σ} : Blanks w → Links.Completes env p .nil w h []
  /-- An operator, its right operand, and the links behind it. -/
  | cons {p : Nat} {op : Operator} {e : Operand} {r : Links} {w token t u : List Char} {h : σ}
      {cs ds : List Completed} :
      Blanks w → token ∈ op.spellings →
      Operand.Completes env (p + (w ++ token).length) e t h cs →
      Links.Completes env (p + (w ++ token ++ t).length) r u (e.meaning env h).2 ds →
      MayTouch t u → Links.Completes env p (.cons op e r) (w ++ token ++ t ++ u) h (cs ++ ds)

end

mutual

/-- An operand completes calls in each of its texts. -/
lemma Operand.Written.completes (env : Env ω σ) {e : Operand} {t : List Char} :
    Operand.Written e t → ∀ (p : Nat) (h : σ), ∃ cs, Operand.Completes env p e t h cs
  | .blank hc he, p, h =>
    let ⟨cs, hcs⟩ := he.completes env (p + 1) h
    ⟨cs, .blank hc hcs⟩
  | .whole digits, _, _ => ⟨[], .plain trivial (.whole digits)⟩
  | .point digits fraction, _, _ => ⟨[], .plain trivial (.point digits fraction)⟩
  | .reference target, _, _ => ⟨[], .plain trivial (.reference target)⟩
  | .plus he, p, h =>
    let ⟨cs, hcs⟩ := he.completes env (p + 1) h
    ⟨cs, .plus hcs⟩
  | .minus he, p, h =>
    let ⟨cs, hcs⟩ := he.completes env (p + 1) h
    ⟨cs, .minus hcs⟩
  | .group hx, p, h =>
    let ⟨cs, hcs⟩ := hx.completes env (p + 1) h
    ⟨cs, .group hcs⟩
  | @Operand.Written.callOne f x name w t hname hw hx, p, h => by
    have hopening : f.Opening (name ++ w ++ ['(']) := ⟨name, w, hname, hw, rfl⟩
    obtain ⟨cs, hcs⟩ := hx.completes env (p + (name ++ w ++ ['(']).length) h
    have hcall := Operand.Completes.callOne hopening hcs
    simp only [List.append_assoc, List.singleton_append] at hcall ⊢
    exact ⟨_, hcall⟩
  | @Operand.Written.callTwo f x y name w t u hname hw hx hy, p, h => by
    have hopening : f.Opening (name ++ w ++ ['(']) := ⟨name, w, hname, hw, rfl⟩
    obtain ⟨cs, hcs⟩ := hx.completes env (p + (name ++ w ++ ['(']).length) h
    obtain ⟨ds, hds⟩ := hy.completes env (p + (name ++ w ++ ['('] ++ t ++ [',']).length)
      (x.meaning env h).2
    have hcall := Operand.Completes.callTwo hopening hcs hds
    simp only [List.append_assoc, List.cons_append] at hcall ⊢
    exact ⟨_, hcall⟩
  | .empty, _, _ => ⟨[], .plain trivial .empty⟩

/-- A chain completes calls in each of its texts. -/
lemma Chain.Written.completes (env : Env ω σ) {x : Chain} {t : List Char} :
    Chain.Written x t → ∀ (p : Nat) (h : σ), ∃ cs, Chain.Completes env p x t h cs
  | @Chain.Written.mk e _ t _ he hr htouch, p, h =>
    let ⟨cs, hcs⟩ := he.completes env p h
    let ⟨ds, hds⟩ := hr.completes env (p + t.length) (e.meaning env h).2
    ⟨cs ++ ds, .mk hcs hds htouch⟩

/-- Links complete calls in each of their texts. -/
lemma Links.Written.completes (env : Env ω σ) {r : Links} {t : List Char} :
    Links.Written r t → ∀ (p : Nat) (h : σ), ∃ cs, Links.Completes env p r t h cs
  | .nil hw, _, _ => ⟨[], .nil hw⟩
  | @Links.Written.cons _ e _ w token t _ hw htoken he hr htouch, p, h =>
    let ⟨cs, hcs⟩ := he.completes env (p + (w ++ token).length) h
    let ⟨ds, hds⟩ := hr.completes env (p + (w ++ token ++ t).length) (e.meaning env h).2
    ⟨cs ++ ds, .cons hw htoken hcs hds htouch⟩

end

variable {env : Env ω σ}

/-! ## All calls -/

mutual

/-- **The functions of the calls in an operand**, those in the arguments of a call before its
own. -/
def Operand.functions : Operand → List Builtin
  | .literal _ _ => []
  | .reference _ => []
  | .sign _ body => body.functions
  | .group body => body.functions
  | .callOne f x => x.functions ++ [f]
  | .callTwo f x y => x.functions ++ y.functions ++ [f]
  | .empty => []

/-- **The functions of the calls in a chain.** -/
def Chain.functions : Chain → List Builtin
  | .mk first rest => first.functions ++ rest.functions

/-- The functions of the calls in links. -/
def Links.functions : Links → List Builtin
  | .nil => []
  | .cons _ right rest => right.functions ++ rest.functions

end

mutual

/-- **An operand completes each of its calls**, once. -/
theorem Operand.Completes.functions {p : Nat} {e : Operand} {t : List Char} {h : σ}
    {cs : List Completed} : Operand.Completes env p e t h cs →
      cs.map Completed.function = e.functions
  | @Operand.Completes.plain _ _ _ _ e _ _ he _ => by
    cases e with
    | literal | reference | empty => rfl
    | sign | group | callOne | callTwo => exact he.elim
  | .blank _ he => he.functions
  | .plus he => he.functions
  | .minus he => he.functions
  | .group hx => hx.functions
  | .callOne _ hx => by
    rw [List.map_append, hx.functions]
    rfl
  | .callTwo _ hx hy => by
    rw [List.map_append, List.map_append, hx.functions, hy.functions]
    rfl

/-- **A chain completes each of its calls**, once. -/
theorem Chain.Completes.functions {p : Nat} {x : Chain} {t : List Char} {h : σ}
    {cs : List Completed} : Chain.Completes env p x t h cs →
      cs.map Completed.function = x.functions
  | .mk he hr _ => by
    rw [List.map_append, he.functions, hr.functions]
    rfl

/-- Links complete each of their calls, once. -/
theorem Links.Completes.functions {p : Nat} {r : Links} {t : List Char} {h : σ}
    {cs : List Completed} : Links.Completes env p r t h cs →
      cs.map Completed.function = r.functions
  | .nil _ => rfl
  | .cons _ _ he hr _ => by
    rw [List.map_append, he.functions, hr.functions]
    rfl

end

/-! ## The order of parentheses -/

/-- **Calls in the order of their closing parentheses**, which stand in a text that starts at a
position. -/
structure InOrder (p : Nat) (text : List Char) (calls : List Completed) : Prop where
  /-- Each parenthesis stands behind those before it. -/
  sorted : calls.Pairwise fun c d => c.close < d.close
  /-- None stands before the text. -/
  le : ∀ c ∈ calls, p ≤ c.close
  /-- There they stand. -/
  close : ∀ c ∈ calls, text[c.close - p]? = some ')'

namespace InOrder

variable {p : Nat} {t u : List Char} {cs ds : List Completed}

/-- No calls are in order. -/
lemma nil (p : Nat) (t : List Char) : InOrder p t [] :=
  ⟨.nil, fun _ h => (List.not_mem_nil h).elim, fun _ h => (List.not_mem_nil h).elim⟩

/-- The parentheses stand before the end of the text. -/
lemma lt (h : InOrder p t cs) {c : Completed} (hc : c ∈ cs) : c.close < p + t.length := by
  obtain ⟨hlt, -⟩ := List.getElem?_eq_some_iff.mp (h.close c hc)
  have hle := h.le c hc
  omega

/-- **Calls in one text and then in the text behind it** are in order. -/
lemma append (hcs : InOrder p t cs) (hds : InOrder (p + t.length) u ds) :
    InOrder p (t ++ u) (cs ++ ds) where
  sorted := by
    refine List.pairwise_append.mpr ⟨hcs.sorted, hds.sorted, fun c hc d hd => ?_⟩
    exact Nat.lt_of_lt_of_le (hcs.lt hc) (hds.le d hd)
  le c hc := by
    rcases List.mem_append.mp hc with hc | hc
    · exact hcs.le c hc
    · exact Nat.le_trans (Nat.le_add_right p _) (hds.le c hc)
  close c hc := by
    rcases List.mem_append.mp hc with hc | hc
    · have hlt := hcs.lt hc
      have hle := hcs.le c hc
      rw [List.getElem?_append_left (by omega)]
      exact hcs.close c hc
    · have hle := hds.le c hc
      rw [List.getElem?_append_right (by omega), Nat.sub_sub]
      exact hds.close c hc

/-- A call is in order behind those in the text before its closing parenthesis. -/
lemma closed (hcs : InOrder p t cs) (f : Builtin) (args : Arguments) :
    InOrder p (t ++ [')']) (cs ++ [⟨p + t.length, f, args⟩]) :=
  hcs.append ⟨List.pairwise_singleton _ _, by simp, by simp⟩

/-- Text in front with no calls in it. -/
lemma behind (t : List Char) (hds : InOrder (p + t.length) u ds) : InOrder p (t ++ u) ds :=
  (nil p t).append hds

/-- Text behind with no calls in it. -/
lemma before (hcs : InOrder p t cs) (u : List Char) : InOrder p (t ++ u) cs :=
  (List.append_nil cs) ▸ hcs.append (nil _ u)

end InOrder

mutual

/-- **An operand completes its calls in the order of their closing parentheses.** -/
theorem Operand.Completes.inOrder {p : Nat} {e : Operand} {t : List Char} {h : σ}
    {cs : List Completed} : Operand.Completes env p e t h cs → InOrder p t cs
  | .plain _ _ => .nil p t
  | @Operand.Completes.blank _ _ _ _ c _ _ _ _ _ he => .behind [c] he.inOrder
  | .plus he => .behind ['+'] he.inOrder
  | .minus he => .behind ['-'] he.inOrder
  | .group hx => (InOrder.behind ['('] hx.inOrder).before [')']
  | .callOne _ hx => (InOrder.behind _ hx.inOrder).closed _ _
  | .callTwo _ hx hy => (((InOrder.behind _ hx.inOrder).before [',']).append hy.inOrder).closed _ _

/-- **A chain completes its calls in the order of their closing parentheses.** -/
theorem Chain.Completes.inOrder {p : Nat} {x : Chain} {t : List Char} {h : σ}
    {cs : List Completed} : Chain.Completes env p x t h cs → InOrder p t cs
  | .mk he hr _ => he.inOrder.append hr.inOrder

/-- Links complete their calls in the order of their closing parentheses. -/
theorem Links.Completes.inOrder {p : Nat} {r : Links} {t : List Char} {h : σ}
    {cs : List Completed} : Links.Completes env p r t h cs → InOrder p t cs
  | .nil _ => .nil p t
  | .cons _ _ he hr _ => (InOrder.behind _ he.inOrder).append hr.inOrder

end

/-! ## What is drawn -/

/-- **The draws on record.** -/
def Recorded.draws (s : Recorded σ) : List HostCall :=
  s.calls.filter HostCall.isDraw

/-- **What a computation draws**: with a record it gives the same value and leaves the host in the
same state, and these draws are put behind those on record. -/
structure Draws (recorded : StateM (Recorded σ) α) (call : StateM σ α) (s : Recorded σ)
    (drawn : List HostCall) : Prop where
  value : (recorded s).1 = (call s.own).1
  own : (recorded s).2.own = (call s.own).2
  record : (recorded s).2.draws = s.draws ++ drawn

namespace Draws

variable {s : Recorded σ} {drawn drawn' : List HostCall}

/-- A value draws nothing. -/
protected lemma pure (a : α) (s : Recorded σ) : Draws (pure a) (pure a) s [] :=
  ⟨rfl, rfl, (List.append_nil _).symm⟩

/-- **A sequence draws what its first part draws**, and then what its second part does. -/
protected lemma bind {recorded : StateM (Recorded σ) α} {call : StateM σ α}
    {recorded' : α → StateM (Recorded σ) β} {call' : α → StateM σ β}
    (hfirst : Draws recorded call s drawn)
    (hsecond : ∀ s', s'.own = (call s.own).2 →
      Draws (recorded' (call s.own).1) (call' (call s.own).1) s' drawn') :
    Draws (recorded >>= recorded') (call >>= call') s (drawn ++ drawn') := by
  obtain ⟨hvalue, hown, hdraws⟩ := hfirst
  obtain ⟨hvalue', hown', hdraws'⟩ := hsecond _ hown
  have hrun : (recorded >>= recorded') s = recorded' (call s.own).1 (recorded s).2 := by
    rw [← hvalue]
    rfl
  have hcall : (call >>= call') s.own = call' (call s.own).1 (call s.own).2 := rfl
  constructor
  · rw [hrun, hcall, hvalue', hown]
  · rw [hrun, hcall, hown', hown]
  · rw [hrun, hdraws', hdraws, List.append_assoc]

/-- A sequence draws what its second part does, if its first part draws nothing. -/
protected lemma bind_nil {recorded : StateM (Recorded σ) α} {call : StateM σ α}
    {recorded' : α → StateM (Recorded σ) β} {call' : α → StateM σ β}
    (hfirst : Draws recorded call s [])
    (hsecond : ∀ s', s'.own = (call s.own).2 →
      Draws (recorded' (call s.own).1) (call' (call s.own).1) s' drawn') :
    Draws (recorded >>= recorded') (call >>= call') s drawn' :=
  hfirst.bind hsecond

/-- What is made of a value draws nothing more. -/
protected lemma map {recorded : StateM (Recorded σ) α} {call : StateM σ α} (f : α → β)
    (h : Draws recorded call s drawn) : Draws (f <$> recorded) (f <$> call) s drawn :=
  ⟨congrArg f h.value, h.own, h.record⟩

/-- A call that is recorded as no draw draws nothing. -/
lemma make (entry : α → HostCall) (hentry : ∀ a, (entry a).isDraw = false) (call : StateM σ α)
    (s : Recorded σ) : Draws (Recorded.make entry call) call s [] where
  value := rfl
  own := rfl
  record := by
    show (s.calls ++ [entry (call s.own).1]).filter HostCall.isDraw = s.draws ++ []
    rw [List.filter_append, List.filter_singleton, hentry]
    rfl

/-- A call that is recorded as a draw draws once. -/
lemma make_draw (draw : HostCall) (hdraw : draw.isDraw = true) (call : StateM σ α)
    (s : Recorded σ) : Draws (Recorded.make (fun _ => draw) call) call s [draw] where
  value := rfl
  own := rfl
  record := by
    show (s.calls ++ [draw]).filter HostCall.isDraw = s.draws ++ [draw]
    rw [List.filter_append, List.filter_singleton, hdraw]
    rfl

/-! ### Objects -/

/-- Reading a number draws nothing. -/
lemma number (env : Env ω σ) (object : ω) (s : Recorded σ) :
    Draws (env.recorded.model.number object) (env.model.number object) s [] :=
  make .number (fun _ => rfl) _ s

/-- Reading a member draws nothing. -/
lemma member (env : Env ω σ) (object : ω) (name : String) (s : Recorded σ) :
    Draws (env.recorded.model.member object name) (env.model.member object name) s [] :=
  make (fun r : Option ω => .member name r.isSome) (fun _ => rfl) (env.model.member object name) s

/-- Reading a component draws nothing. -/
lemma component (env : Env ω σ) (name : String) (s : Recorded σ) :
    Draws (env.recorded.model.component env.context name) (env.model.component env.context name)
      s [] :=
  make (fun r : Option ω => .component name r.isSome) (fun _ => rfl)
    (env.model.component env.context name) s

/-- Following a path draws nothing. -/
lemma follow (env : Env ω σ) (target : Option ω) (names : List String) (s : Recorded σ) :
    Draws (env.recorded.model.follow target names) (env.model.follow target names) s [] := by
  induction names generalizing target s with
  | nil => cases target <;> exact .pure _ s
  | cons name names ih =>
    cases target with
    | none => exact .pure _ s
    | some object => exact .bind_nil (member env object name s) fun s' _ => ih _ s'

/-- Following a path to a number draws nothing. -/
lemma followed (env : Env ω σ) (target : Option ω) (names : List (List Char)) (s : Recorded σ) :
    Draws (followed env.recorded target names) (followed env target names) s [] := by
  refine .bind_nil (follow env target _ s) fun s' _ => ?_
  cases (env.model.follow target (names.map String.ofList) s.own).1 with
  | none => exact .pure _ s'
  | some object => exact number env object s'

/-- **References draw nothing.** -/
lemma reference (env : Env ω σ) (target : Reference) (s : Recorded σ) :
    Draws (target.meaning env.recorded) (target.meaning env) s [] := by
  cases target with
  | context => exact number env env.context s
  | constant negative name => exact .pure _ s
  | member names => exact followed env _ names s
  | component typeName names =>
    exact .bind_nil (component env _ s) fun s' _ => followed env _ names s'

/-- Operands in which no call can stand draw nothing. -/
lemma plain (env : Env ω σ) {e : Operand} (he : e.IsPlain) (s : Recorded σ) :
    Draws (e.meaning env.recorded) (e.meaning env) s [] := by
  cases e with
  | literal whole fraction => exact .pure _ s
  | reference target => exact reference env target s
  | empty => exact .pure _ s
  | sign | group | callOne | callTwo => exact he.elim

/-! ### Calls -/

/-- Drawing a number is drawing it. -/
lemma uniform (env : Env ω σ) (min max : Float) (s : Recorded σ) :
    Draws (env.recorded.random.uniform min max) (env.random.uniform min max) s
      [.uniform min max] :=
  make_draw (.uniform min max) rfl (env.random.uniform min max) s

/-- Drawing an integer is drawing it. -/
lemma integer (env : Env ω σ) (min max : Int64) (s : Recorded σ) :
    Draws (env.recorded.random.integer min max) (env.random.integer min max) s
      [.integer min max] :=
  make_draw (.integer min max) rfl (env.random.integer min max) s

/-- **A completed call draws what its function does** with its arguments. -/
lemma call (env : Env ω σ) (c : Completed) (s : Recorded σ) :
    Draws (c.function.call env.recorded.random c.arguments)
      (c.function.call env.random c.arguments) s (draws [c]) := by
  obtain ⟨close, f, args⟩ := c
  cases f <;> cases args
  case rand.one max => exact (uniform env 0.0 max s).map some
  case rand.two min max => exact (uniform env min max s).map some
  case randint.one max =>
    exact (integer env 0 max.toInt64 s).map fun i : Int64 => some i.toFloat
  case randint.two min max =>
    exact (integer env min.toInt64 max.toInt64 s).map fun i : Int64 => some i.toFloat
  all_goals exact .pure _ s

/-- What is made of the result of a call draws nothing more. -/
lemma result (env : Env ω σ) (c : Completed) (s : Recorded σ) :
    Draws (do return (← c.function.call env.recorded.random c.arguments).getD 0.0)
      (do return (← c.function.call env.random c.arguments).getD 0.0) s (draws [c]) :=
  (call env c s).map fun r : Option Float => r.getD 0.0

end Draws

mutual

/-- **What an operand draws is what its completed calls draw.** -/
theorem Operand.Completes.draws {p : Nat} {e : Operand} {t : List Char} {h : σ}
    {cs : List Completed} : Operand.Completes env p e t h cs → ∀ s : Recorded σ, s.own = h →
      Draws (e.meaning env.recorded) (e.meaning env) s (draws cs)
  | .plain he _, s, _ => .plain env he s
  | .blank _ he, s, hs => he.draws s hs
  | .plus he, s, hs => (he.draws s hs).map id
  | .minus he, s, hs => (he.draws s hs).map Neg.neg
  | .group hx, s, hs => hx.draws s hs
  | .callOne _ hx, s, hs => by
    subst hs
    rw [draws_append]
    refine (hx.draws s rfl).bind fun s' _ => ?_
    exact .result env ⟨_, _, .one _⟩ s'
  | .callTwo _ hx hy, s, hs => by
    subst hs
    rw [draws_append, draws_append, List.append_assoc]
    refine (hx.draws s rfl).bind fun s' hs' => (hy.draws s' hs').bind fun s'' _ => ?_
    rw [hs']
    exact .result env ⟨_, _, .two _ _⟩ s''

/-- **What a chain draws is what its completed calls draw.** -/
theorem Chain.Completes.draws {p : Nat} {x : Chain} {t : List Char} {h : σ}
    {cs : List Completed} : Chain.Completes env p x t h cs → ∀ s : Recorded σ, s.own = h →
      Draws (x.meaning env.recorded) (x.meaning env) s (draws cs)
  | .mk he hr _, s, hs => by
    subst hs
    rw [draws_append]
    exact (he.draws s rfl).bind fun s' hs' => hr.draws _ s' hs'

/-- What links draw is what their completed calls draw, whatever the value before them is. -/
theorem Links.Completes.draws {p : Nat} {r : Links} {t : List Char} {h : σ}
    {cs : List Completed} : Links.Completes env p r t h cs → ∀ (value : Float) (s : Recorded σ),
      s.own = h → Draws (r.meaning env.recorded value) (r.meaning env value) s (draws cs)
  | .nil _, _, s, _ => .pure _ s
  | .cons _ _ he hr _, _, s, hs => by
    subst hs
    rw [draws_append]
    exact (he.draws s rfl).bind fun s' hs' => hr.draws _ s' hs'

end

end Formula
