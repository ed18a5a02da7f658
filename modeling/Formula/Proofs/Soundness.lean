import Formula.Proofs.Lexical.References
import Formula.Proofs.Neighbours
import Formula.Proofs.Steps

set_option relaxedAutoImplicit false
set_option autoImplicit false

/-!
# Soundness

What is evaluated is the text of an expression, and the value is what the expression means. The
expression is found behind the run, since evaluation builds none: each level of operands is sound
if the level below it is, and a chain is sound if its operands are.

## Main definitions

* `Formula.Operand.Derived`, `Formula.Chain.Derived`, `Formula.Links.Derived` — expressions whose
  texts lie between two states of a run.
* `Formula.Ending.Behind` — what ends a chain, behind a part of it.
* `Formula.Scanner.Sound` — levels whose operands are derived.

## Main results

* `Formula.Scanner.sound` — all levels are sound.
* `Formula.eval_sound` — evaluation is sound.
-/

namespace Formula

open Scanner

variable {ω σ α : Type}

/-! ## Derivations between two states -/

/-- The text that ends a chain, which is not a part of it. -/
def Ending.mark : Ending → List Char
  | text => []
  | close => [')']
  | comma => [',']

/-- How many parentheses an ending closes. -/
def Ending.closed : Ending → Nat
  | close => 1
  | _ => 0

/-- **Where a chain may end** in its scope, and with what behind it. -/
def Ending.Allowed (scope : Scope) (rest : List Char) : Ending → Prop
  | text => scope = .whole ∧ rest = []
  | close => True
  | comma => scope = .argument

variable (env : Env ω σ) (levels : Nat)

/-- **An operand lies between two states** of a run that gives a value: its text is what the run has
moved over, and it means the value. -/
structure Operand.Derived (s : Running σ) (x : Float) (s' : Running σ) (e : Operand)
    (t : List Char) : Prop where
  /-- The text has been moved over. -/
  rest : s.cursor.rest = t ++ s'.cursor.rest
  /-- It is a text of the operand. -/
  written : Operand.Written e t
  /-- The operand can be written in front of what follows. -/
  wellFormed : e.WellFormed (s'.cursor.rest.head? == some ')')
  /-- What follows may touch it. -/
  mayTouch : MayTouch t s'.cursor.rest
  /-- It nests no deeper than the levels. -/
  nesting : e.nesting ≤ levels
  /-- It means the value that is given, with the calls that are made. -/
  meaning : e.meaning env s.host = (x, s'.host)
  /-- All of its parentheses are closed. -/
  depth : s'.depth = s.depth

/-- **A part of a chain lies between two states**, with what ends the chain behind it. -/
structure Ending.Behind (ending : Ending) (scope : Scope) (s s' : Running σ) (t : List Char) :
    Prop where
  /-- The text has been moved over, and what ends the chain. -/
  rest : s.cursor.rest = t ++ (ending.mark ++ s'.cursor.rest)
  /-- All of its parentheses are closed, and the one that ends the chain. -/
  depth : s.depth = s'.depth + ending.closed
  /-- The chain may end there. -/
  allowed : ending.Allowed scope s'.cursor.rest

/-- **Links lie between two states**, behind a value so far. -/
structure Links.Derived (scope : Scope) (value : Float) (s : Running σ) (x : Float)
    (ending : Ending) (s' : Running σ) (r : Links) (t : List Char) : Prop
    extends ending.Behind scope s s' t where
  /-- It is a text of the links. -/
  written : Links.Written r t
  /-- The links can be written in front of what ends the chain. -/
  wellFormed : r.WellFormed (ending == .close)
  /-- They nest no deeper than the levels. -/
  nesting : r.nesting ≤ levels
  /-- They mean the value that is given, with the calls that are made. -/
  meaning : r.meaning env value s.host = (x, s'.host)

/-- **A chain lies between two states.** -/
structure Chain.Derived (scope : Scope) (s : Running σ) (x : Float) (ending : Ending)
    (s' : Running σ) (c : Chain) (t : List Char) : Prop extends ending.Behind scope s s' t where
  /-- It is a text of the chain. -/
  written : Chain.Written c t
  /-- The chain can be written in front of what ends it. -/
  wellFormed : c.WellFormed (ending == .close)
  /-- It nests no deeper than the levels. -/
  nesting : c.nesting ≤ levels
  /-- It means the value that is given, with the calls that are made. -/
  meaning : c.meaning env s.host = (x, s'.host)

/-- **Levels are sound** if each operand that is read in them is one of the grammar. -/
def Scanner.Sound : Prop :=
  ∀ {s s' : Running σ} {x : Float}, operand env levels s = .ok x s' →
    ∃ e t, Operand.Derived env levels s x s' e t

variable {env levels}

/-! ## Chains -/

/-- **Links in front of a closing parenthesis are no links**, and it ends their chain. -/
lemma Links.Derived.eq_nil {scope : Scope} {value : Float} {s s' : Running σ} {x : Float}
    {ending : Ending} {r : Links} {t : List Char}
    (h : Links.Derived env levels scope value s x ending s' r t)
    (hclose : s.cursor.rest.head? = some ')') : (ending == .close && r.isNil) = true := by
  have hrest := h.rest
  have hallowed := h.allowed
  cases h.written with
  | nil hw =>
    cases t with
    | nil =>
      rw [hrest, List.nil_append] at hclose
      cases ending with
      | text =>
        rw [hallowed.2] at hclose
        exact absurd hclose (by simp [Ending.mark])
      | close => rfl
      | comma => exact absurd hclose (by simp [Ending.mark])
    | cons b bs =>
      rw [hrest] at hclose
      obtain rfl : b = ')' := by simpa using hclose
      exact absurd (hw ')' List.mem_cons_self) (by decide)
  | @cons _ _ _ w _ _ _ hw htoken _ _ _ =>
    obtain ⟨c, tail, rfl, -, -, hne, -⟩ := Operator.head_of_mem_spellings htoken
    rw [hrest] at hclose
    cases w with
    | nil => exact absurd (by simpa using hclose) hne
    | cons b bs =>
      obtain rfl : b = ')' := by simpa using hclose
      exact absurd (hw ')' List.mem_cons_self) (by decide)

/-- The operand in front of links can be written there. -/
lemma Operand.Derived.wellFormed_of_links {scope : Scope} {s s₁ s' : Running σ} {x value y : Float}
    {ending : Ending} {e : Operand} {r : Links} {t u : List Char}
    (he : Operand.Derived env levels s x s₁ e t)
    (hr : Links.Derived env levels scope value s₁ y ending s' r u) :
    e.WellFormed (ending == .close && r.isNil) := by
  refine he.wellFormed.mono fun hclose => hr.eq_nil ?_
  simpa using hclose

/-- Blanks in front of what ends a chain are no links. -/
lemma Links.derived_nil {scope : Scope} {ending : Ending} {s s' : Running σ} {w : List Char}
    (h : ending.Behind scope s s' w) (hw : Blanks w) (hhost : s'.host = s.host) (value : Float) :
    Links.Derived env levels scope value s value ending s' .nil w where
  toBehind := h
  written := .nil hw
  wellFormed := trivial
  nesting := Nat.zero_le levels
  meaning := by rw [hhost]; rfl

/-- An operator and an operand in front of links are links. -/
lemma Links.Derived.cons {scope : Scope} {ending : Ending} {s s₁ s₂ s' : Running σ} {op : Operator}
    {e : Operand} {r : Links} {w token t u : List Char} {value x y : Float} (hw : Blanks w)
    (htoken : token ∈ op.spellings) (hrest : s.cursor.rest = w ++ (token ++ s₁.cursor.rest))
    (hdepth : s₁.depth = s.depth) (hhost : s₁.host = s.host)
    (he : Operand.Derived env levels s₁ x s₂ e t)
    (hr : Links.Derived env levels scope (op.apply value x) s₂ y ending s' r u) :
    Links.Derived env levels scope value s y ending s' (.cons op e r) (w ++ token ++ t ++ u) where
  rest := by simp only [hrest, he.rest, hr.rest, List.append_assoc]
  depth := by rw [← hdepth, ← he.depth, hr.depth]
  allowed := hr.allowed
  written := .cons hw htoken he.written hr.written (MayTouch.of_append (hr.rest ▸ he.mayTouch))
  wellFormed := ⟨he.wellFormed_of_links hr, hr.wellFormed⟩
  nesting := Nat.max_le.mpr ⟨he.nesting, hr.nesting⟩
  meaning := by
    have hmeaning : (Links.cons op e r).meaning env value s.host =
        r.meaning env (op.apply value (e.meaning env s.host).1) (e.meaning env s.host).2 := rfl
    rw [hmeaning, ← hhost, he.meaning, hr.meaning]

/-- **Links that are read in sound levels are derived.**

**Proof sketch.** Induction on the text ahead. Behind the blanks ahead the links end, or an operator
follows and an operand, which are derived, and the text behind them is shorter. -/
lemma Links.derived (hlevels : Sound env levels) {scope : Scope} {value x : Float}
    {ending : Ending} {s s' : Running σ}
    (hrun : links env levels scope value s = .ok (x, ending) s') :
    ∃ r t, Links.Derived env levels scope value s x ending s' r t := by
  induction hn : s.cursor.rest.length using Nat.strongRecOn generalizing s value with
  | ind n ih =>
    subst hn
    obtain ⟨p, w, cs, hw, hrest, hhead, hsettle⟩ := s.exists_settle
    rw [← links_settle, hsettle] at hrun
    cases cs with
    | nil =>
      rw [links_nil, endOfText] at hrun
      split_ifs at hrun with hscope
      · obtain ⟨hx, rfl⟩ := pure_eq_ok.mp hrun
        obtain ⟨rfl, rfl⟩ := Prod.mk.inj hx
        have hbehind : Ending.text.Behind scope s (.facing p [] s.depth s.host) w :=
          ⟨hrest, rfl, hscope, rfl⟩
        exact ⟨.nil, w, derived_nil hbehind hw rfl value⟩
      · cases hrun
    | cons c cs =>
      by_cases hclose : c = ')'
      · subst hclose
        rw [links_close, bind_apply, closeParen_apply] at hrun
        split_ifs at hrun with hdepth
        obtain ⟨hx, rfl⟩ := pure_eq_ok.mp hrun
        obtain ⟨rfl, rfl⟩ := Prod.mk.inj hx
        have hbehind : Ending.close.Behind scope s (.facing (p + 1) cs (s.depth - 1) s.host) w :=
          ⟨hrest, (Nat.succ_pred hdepth).symm, trivial⟩
        exact ⟨.nil, w, derived_nil hbehind hw rfl value⟩
      · by_cases hcomma : c = ',' ∧ scope = .argument
        · obtain ⟨rfl, rfl⟩ := hcomma
          rw [links_comma] at hrun
          simp only [EStateM.Result.ok.injEq, Prod.mk.injEq] at hrun
          obtain ⟨⟨rfl, rfl⟩, rfl⟩ := hrun
          have hbehind : Ending.comma.Behind .argument s (.facing (p + 1) cs s.depth s.host) w :=
            ⟨hrest, rfl, rfl⟩
          exact ⟨.nil, w, derived_nil hbehind hw rfl value⟩
        · rw [links_operator env levels scope (hhead c rfl) hclose hcomma] at hrun
          obtain ⟨op, s₁, hop, hrun⟩ := bind_eq_ok.mp hrun
          obtain ⟨y, s₂, hy, hrun⟩ := bind_eq_ok.mp hrun
          obtain ⟨token, htoken, hcs, hdepth, hhost⟩ := spelling_of_operator hop
          obtain ⟨e, t, he⟩ := hlevels hy
          have hlength : s₂.cursor.rest.length < s.cursor.rest.length := by
            have h₁ := length_rest_of_operator hop
            have h₂ := congrArg List.length he.rest
            have h₃ := congrArg List.length hrest
            simp only [List.length_append, List.length_cons] at h₂ h₃
            omega
          obtain ⟨r, u, hr⟩ := ih _ hlength hrun rfl
          exact ⟨_, _, hr.cons hw htoken (hrest.trans (by rw [hcs])) hdepth hhost he⟩

/-- **Chains that are read in sound levels are derived.** -/
lemma Chain.derived (hlevels : Sound env levels) {scope : Scope} {x : Float} {ending : Ending}
    {s s' : Running σ} (hrun : chain (operand env levels) scope s = .ok (x, ending) s') :
    ∃ c t, Chain.Derived env levels scope s x ending s' c t := by
  rw [chain_eq] at hrun
  obtain ⟨y, s₁, hy, hrun⟩ := bind_eq_ok.mp hrun
  obtain ⟨e, t, he⟩ := hlevels hy
  obtain ⟨r, u, hr⟩ := Links.derived hlevels hrun
  refine ⟨.mk e r, t ++ u, ⟨?_, ?_, hr.allowed⟩, ?_, ?_, ?_, ?_⟩
  · rw [he.rest, hr.rest, List.append_assoc]
  · rw [← he.depth, hr.depth]
  · exact .mk he.written hr.written (MayTouch.of_append (hr.rest ▸ he.mayTouch))
  · exact ⟨he.wellFormed_of_links hr, hr.wellFormed⟩
  · exact Nat.max_le.mpr ⟨he.nesting, hr.nesting⟩
  · have hmeaning : (Chain.mk e r).meaning env s.host =
        r.meaning env (e.meaning env s.host).1 (e.meaning env s.host).2 := rfl
    rw [hmeaning, he.meaning, hr.meaning]

/-! ## Operands without parts -/

/-- An operand behind blanks is one with blanks in front. -/
lemma Operand.Derived.blanks {s s₁ s' : Running σ} {x : Float} {e : Operand} {w t : List Char}
    (he : Operand.Derived env levels s₁ x s' e t) (hw : Blanks w)
    (hrest : s.cursor.rest = w ++ s₁.cursor.rest) (hdepth : s₁.depth = s.depth)
    (hhost : s₁.host = s.host) : Operand.Derived env levels s x s' e (w ++ t) where
  rest := by rw [hrest, he.rest, List.append_assoc]
  written := by
    have hwritten := he.written
    clear hrest
    induction w with
    | nil => exact hwritten
    | cons b w ih =>
      exact .blank (hw b List.mem_cons_self) (ih fun c hc => hw c (List.mem_cons_of_mem _ hc))
  wellFormed := he.wellFormed
  mayTouch := he.mayTouch.append_left fun hmark => absurd (hw '$' hmark) (by decide)
  nesting := he.nesting
  meaning := by rw [← hhost, he.meaning]
  depth := he.depth.trans hdepth

variable {p d : Nat} {cs : List Char} {h : σ} {x : Float} {s' : Running σ}

/-- A literal that is read is derived. -/
lemma Operand.derived_number {c : Char} (hc : c.isDigit = true)
    (hrun : number (.facing p (c :: cs) d h) = .ok x s') :
    ∃ e t, Operand.Derived env levels (.facing p (c :: cs) d h) x s' e t := by
  obtain ⟨whole, fraction, hwf, hrest, rfl, hdepth, rfl⟩ := text_of_number hc hrun
  refine ⟨.literal whole fraction, Literal.text whole fraction, hrest, ?_, hwf, ?_,
    Nat.zero_le levels, rfl, hdepth⟩
  · cases fraction with
    | none => exact .whole whole
    | some digits => exact .point whole digits
  · refine .of_getLast? fun hmark => ?_
    obtain ⟨-, hwhole, hfraction, -⟩ := hwf
    have hmem : '$' ∈ Literal.text whole fraction := List.mem_of_getLast? hmark
    cases fraction with
    | none => exact absurd (hwhole '$' hmem) (by decide)
    | some digits =>
      rcases List.mem_append.mp hmem with hmem | hmem
      · exact absurd (hwhole '$' hmem) (by decide)
      · rcases List.mem_cons.mp hmem with hpoint | hmem
        · exact absurd hpoint (by decide)
        · exact absurd (hfraction '$' hmem) (by decide)

/-- A reference that is read is derived. -/
lemma Operand.derived_reference
    (hrun : Scanner.reference env (.facing (p + 1) cs d h) = .ok x s') :
    ∃ e t, Operand.Derived env levels (.facing p ('$' :: cs) d h) x s' e t := by
  obtain ⟨target, hwf, hrest, htouch, hmeaning, hdepth⟩ := text_of_reference env hrun
  have hcs : cs = target.text ++ s'.cursor.rest := hrest
  exact ⟨.reference target, '$' :: target.text, by rw [hcs, List.cons_append],
    .reference target, hwf, htouch, Nat.zero_le levels, hmeaning, hdepth⟩

/-- An operand that is left out is derived in front of a closing parenthesis. -/
lemma Operand.derived_empty :
    Operand.Derived env levels (.facing p (')' :: cs) d h) 0.0 (.facing p (')' :: cs) d h)
      .empty [] :=
  ⟨rfl, .empty, rfl, .nil _, Nat.zero_le levels, rfl, rfl⟩

/-! ## Operands with parts -/

section

variable (hlevels : Sound env levels)

include hlevels

/-- An operand behind a sign is derived. -/
lemma Operand.derived_sign {c : Char} {negative : Bool} (hc : c ≠ '$')
    (hwritten : ∀ {e t}, Operand.Written e t → Operand.Written (.sign negative e) (c :: t))
    {y : Float} (hrun : operand env levels (.facing (p + 1) cs d h) = .ok y s')
    (hx : (if negative then -y else y) = x) :
    ∃ e t, Operand.Derived env (levels + 1) (.facing p (c :: cs) d h) x s' e t := by
  obtain ⟨e, t, he⟩ := hlevels hrun
  have hcs : cs = t ++ s'.cursor.rest := he.rest
  have hmark : '$' ∉ [c] := by simpa using fun heq => hc heq.symm
  have hmeaning : (Operand.sign negative e).meaning env h =
      (if negative then -(e.meaning env h).1 else (e.meaning env h).1, (e.meaning env h).2) := rfl
  refine ⟨.sign negative e, c :: t, ?_, hwritten he.written, he.wellFormed, ?_,
    Nat.succ_le_succ he.nesting, ?_, he.depth⟩
  · rw [hcs, List.cons_append]
  · exact he.mayTouch.append_left hmark
  · rw [hmeaning, he.meaning, hx]

/-- A group that is read is derived. -/
lemma Operand.derived_group {ending : Ending}
    (hrun : chain (operand env levels) .group (.facing (p + 1) cs (d + 1) h) = .ok (x, ending) s') :
    ∃ e t, Operand.Derived env (levels + 1) (.facing p ('(' :: cs) d h) x s' e t := by
  obtain ⟨c, t, hc⟩ := Chain.derived hlevels hrun
  have hallowed := hc.allowed
  cases ending with
  | text => exact absurd hallowed.1 (by decide)
  | comma => cases hallowed
  | close =>
    have hcs : cs = t ++ ')' :: s'.cursor.rest := hc.rest
    have hdepth : s'.depth = d := (Nat.succ.inj hc.depth).symm
    refine ⟨.group c, '(' :: t ++ [')'], ?_, .group hc.written, hc.wellFormed,
      .of_close _ _, Nat.succ_le_succ hc.nesting, hc.meaning, hdepth⟩
    simp [hcs]

/-- **An argument that is read is derived**: it is the last one if a closing parenthesis ends it,
and another one follows a comma. -/
lemma Chain.derived_argument {last : Bool} {s : Running σ}
    (hrun : argument (operand env levels) s = .ok (x, last) s') :
    ∃ c t, Chain.Derived env levels .argument s x (if last then .close else .comma) s' c t := by
  obtain ⟨⟨y, ending⟩, s₁, hchain, hrun⟩ := bind_eq_ok.mp hrun
  obtain ⟨hx, rfl⟩ := pure_eq_ok.mp hrun
  obtain ⟨rfl, rfl⟩ := Prod.mk.inj hx
  obtain ⟨c, t, hc⟩ := Chain.derived hlevels hchain
  refine ⟨c, t, ?_⟩
  cases ending with
  | text => exact absurd hc.allowed.1 (by decide)
  | close => exact hc
  | comma => exact hc

/-- **A call that is read is derived**, with as many arguments as its function takes. -/
lemma Operand.derived_call {f : Builtin} {name w : List Char}
    (hname : Text.lower name = f.name.toList) (hw : Blanks w) {q : Nat}
    (hrun : applied env (level env (levels + 1)) f (.facing q cs (d + 1) h) = .ok x s') :
    ∃ e t, Operand.Derived env (levels + 1) (.facing p (name ++ (w ++ '(' :: cs)) d h) x s' e
      t := by
  obtain ⟨args, s₁, hargs, hrun⟩ := bind_eq_ok.mp hrun
  rcases arguments_eq_ok hargs with ⟨y, harity, rfl, hy⟩ | ⟨y, z, s₂, harity, rfl, hy, hz⟩
  · rw [invoke_apply env (admits_one harity y)] at hrun
    obtain ⟨rfl, rfl⟩ := EStateM.Result.ok.inj hrun
    obtain ⟨c, t, hc⟩ := Chain.derived_argument hlevels hy
    have hcs : cs = t ++ ')' :: s₁.cursor.rest := hc.rest
    have hdepth : s₁.depth = d := (Nat.succ.inj hc.depth).symm
    have hmeaning : (Operand.callOne f c).meaning env h =
        (((f.call env.random (.one (c.meaning env h).1) (c.meaning env h).2).1).getD 0.0,
          (f.call env.random (.one (c.meaning env h).1) (c.meaning env h).2).2) := rfl
    have hc' : c.meaning env h = (y, s₁.host) := hc.meaning
    refine ⟨.callOne f c, name ++ w ++ '(' :: t ++ [')'], ?_, .callOne hname hw hc.written,
      ⟨harity, hc.wellFormed⟩, .of_close _ _, Nat.succ_le_succ hc.nesting, ?_, hdepth⟩
    · simp [hcs]
    · rw [hmeaning, hc']
  · rw [invoke_apply env (admits_two harity y z)] at hrun
    obtain ⟨rfl, rfl⟩ := EStateM.Result.ok.inj hrun
    obtain ⟨b, t, hb⟩ := Chain.derived_argument hlevels hy
    obtain ⟨c, u, hc⟩ := Chain.derived_argument hlevels hz
    have hcs : cs = t ++ ',' :: s₂.cursor.rest := hb.rest
    have hrest : s₂.cursor.rest = u ++ ')' :: s₁.cursor.rest := hc.rest
    have hdepth₂ : d + 1 = s₂.depth := hb.depth
    have hdepth₁ : s₂.depth = s₁.depth + 1 := hc.depth
    have hdepth : s₁.depth = d := by omega
    have hmeaning : (Operand.callTwo f b c).meaning env h =
        (((f.call env.random (.two (b.meaning env h).1 (c.meaning env (b.meaning env h).2).1)
          (c.meaning env (b.meaning env h).2).2).1).getD 0.0,
          (f.call env.random (.two (b.meaning env h).1 (c.meaning env (b.meaning env h).2).1)
            (c.meaning env (b.meaning env h).2).2).2) := rfl
    have hb' : b.meaning env h = (y, s₂.host) := hb.meaning
    refine ⟨.callTwo f b c, name ++ w ++ '(' :: t ++ ',' :: u ++ [')'], ?_,
      .callTwo hname hw hb.written hc.written, ⟨harity, hb.wellFormed, hc.wellFormed⟩,
      .of_close _ _, Nat.succ_le_succ (Nat.max_le.mpr ⟨hb.nesting, hc.nesting⟩), ?_, hdepth⟩
    · simp [hcs, hrest]
    · rw [hmeaning, hb', hc.meaning]

end

/-! ## All levels -/

/-- **A level is sound if the one below it is**, by the first character of its operands. -/
lemma Scanner.sound_step (hbelow : ∀ l, levels = l + 1 → Sound env l) : Sound env levels := by
  intro s s' x hrun
  obtain ⟨p, w, cs, hw, hrest, hhead, hsettle⟩ := s.exists_settle
  suffices hderived : ∃ e t, Operand.Derived env levels s.settle x s' e t by
    obtain ⟨e, t, he⟩ := hderived
    rw [hsettle] at he
    exact ⟨e, w ++ t, he.blanks hw hrest rfl rfl⟩
  rw [← operand_settle] at hrun
  rw [hsettle] at hrun ⊢
  cases cs with
  | nil =>
    rw [operand_eq, operandWith_nil] at hrun
    cases hrun
  | cons c cs =>
    by_cases hdigit : c.isDigit = true
    · rw [operand_digit env levels _ _ _ _ hdigit] at hrun
      exact Operand.derived_number hdigit hrun
    by_cases halpha : c.isAlpha = true
    · rw [operand_alpha env levels _ _ _ _ halpha] at hrun
      obtain ⟨f, name, w', cs', q, hname, hw', hcs, hrun⟩ := text_of_call env _ hrun
      obtain ⟨args, s₁, hargs, -⟩ := bind_eq_ok.mp hrun
      obtain ⟨l, rfl, -⟩ := (nested_eq_ok env levels).mp hargs
      have hcs' : c :: cs = name ++ (w' ++ '(' :: cs') := hcs
      rw [hcs']
      exact Operand.derived_call (hbelow l rfl) hname hw' hrun
    by_cases hother : c ∈ ['$', '(', '+', '-', ')']
    · simp only [List.mem_cons, List.not_mem_nil, or_false] at hother
      rcases hother with rfl | rfl | rfl | rfl | rfl
      · rw [operand_mark] at hrun
        exact Operand.derived_reference hrun
      · rw [operand_open] at hrun
        obtain ⟨⟨y, ending⟩, s₁, hgroup, hrun⟩ := bind_eq_ok.mp hrun
        obtain ⟨rfl, rfl⟩ := pure_eq_ok.mp hrun
        obtain ⟨l, rfl, hgroup⟩ := (nested_eq_ok env levels).mp hgroup
        exact Operand.derived_group (hbelow l rfl) hgroup
      · rw [operand_plus] at hrun
        obtain ⟨l, rfl, hbody⟩ := (nested_eq_ok env levels).mp hrun
        exact Operand.derived_sign (hbelow l rfl) (by decide) .plus hbody rfl
      · rw [operand_minus] at hrun
        obtain ⟨y, s₁, hbody, hrun⟩ := bind_eq_ok.mp hrun
        obtain ⟨rfl, rfl⟩ := pure_eq_ok.mp hrun
        obtain ⟨l, rfl, hbody⟩ := (nested_eq_ok env levels).mp hbody
        exact Operand.derived_sign (hbelow l rfl) (by decide) .minus hbody rfl
      · rw [operand_close] at hrun
        obtain ⟨rfl, rfl⟩ := EStateM.Result.ok.inj hrun
        exact ⟨_, _, Operand.derived_empty⟩
    · rw [operand_other env levels _ _ _ _ (hhead c rfl) (by simpa using hdigit)
        (by simpa using halpha) hother] at hrun
      cases hrun

/-- **All levels are sound.** -/
lemma Scanner.sound (levels : Nat) : Sound env levels := by
  induction levels with
  | zero => exact sound_step fun l hl => absurd hl.symm (Nat.succ_ne_zero l)
  | succ l ih => exact sound_step fun k hk => Nat.succ.inj hk ▸ ih

/-! ## Whole texts -/

/-- **A whole text that is read is that of an expression**, which means the value.

**Proof sketch.** The chain that is read lies between the start of the text and the state behind
it. No parenthesis is open there, so none can end it, and a comma ends arguments only; hence the
text ends it, and all of it belongs to the chain. -/
theorem formula_derived {text : List Char} {host : σ} {v : Float} {s : Running σ}
    (hrun : formula env (.facing 0 text 0 host) = .ok v s) :
    ∃ x : Chain, Chain.Written x text ∧ x.WellFormed false ∧ x.nesting ≤ env.maxDepth ∧
      x.meaning env host = (v, s.host) := by
  obtain ⟨⟨y, ending⟩, s₁, hchain, hrun⟩ := bind_eq_ok.mp hrun
  obtain ⟨rfl, rfl⟩ := pure_eq_ok.mp hrun
  obtain ⟨x, t, hx⟩ := Chain.derived (sound env.maxDepth) hchain
  have hallowed := hx.allowed
  cases ending with
  | comma => cases hallowed
  | close => exact absurd hx.depth (Nat.succ_ne_zero _).symm
  | text =>
    have htext : text = t := by
      have hrest := hx.rest
      rw [hallowed.2] at hrest
      simpa [Ending.mark] using hrest
    rw [htext]
    exact ⟨x, hx.written, hx.wellFormed, hx.nesting, hx.meaning⟩

/-- **Evaluation is sound**: what is evaluated is a text of an expression that can be written and
nests no deeper than evaluation may, and the value is what the expression means, with the calls that
are made on the host. -/
theorem eval_sound (e : Evaluator) (env : Env ω σ) (text : String) (host : σ) {v : Float}
    (hv : (e.eval env text host).1 = .ok v) :
    ∃ x : Chain, Chain.Written x text.toList ∧ x.WellFormed false ∧ x.nesting ≤ env.maxDepth ∧
      x.meaning env host = (v, (e.eval env text host).2.2) := by
  rw [Evaluator.eval_eq] at hv ⊢
  cases hrun : formula env (.facing 0 text.toList 0 host) with
  | error error s =>
    rw [hrun] at hv
    cases hv
  | ok y s =>
    rw [hrun] at hv
    obtain rfl : y = v := Except.ok.inj hv
    exact formula_derived hrun

/-- On a sign in front of a group whose last operand is left out. -/
theorem eval_sound_group :
    ∃ x : Chain, Chain.Written x "-(3+)".toList ∧ x.WellFormed false ∧ x.nesting ≤ 2 ∧
      x.meaning (.ofDocument .null 2) 5 = (-((3 : UInt64).toFloat + 0.0), 5) :=
  eval_sound .blank (.ofDocument .null 2) "-(3+)" 5 rfl

end Formula
