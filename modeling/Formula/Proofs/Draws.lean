import Formula.Proofs.Draws.Skims
import Formula.Proofs.Lockstep.Hosts

set_option relaxedAutoImplicit false
set_option autoImplicit false

/-!
# Random draws

The random numbers that an evaluation draws are those of the calls that are completed in the text
that it reads, in the order of their closing parentheses: of all calls when it gives a value, and of
those completed before the error when it stops with one. The calls are found behind the run. Where
a part of the text has been read, soundness gives the expression and the expression its calls; where
a part breaks off, each level of operands leaves a text behind that breaks off in an operand, if the
level below it does.

## Main definitions

* `Formula.Passed` — a part of a run, with its text and the calls completed in it.
* `Formula.Interrupted` — a run that has stopped in a text that breaks off.

## Main results

* `Formula.Scanner.interrupted` — operands that stop with an error break off, on all levels.
* `Formula.eval_draws` — what an evaluation draws.
-/

namespace Formula

open Scanner

variable {ω σ α β : Type}

/-! ## Errors in sequences -/

namespace Scanner

/-- A sequence stops with an error in its first part or in its second. -/
lemma bind_eq_error {m : Scanner σ α} {f : α → Scanner σ β} {s t : Running σ} {e : EvalError} :
    (m >>= f) s = .error e t ↔ m s = .error e t ∨ ∃ a u, m s = .ok a u ∧ f a u = .error e t := by
  rw [bind_apply]
  cases m s <;> simp

/-- What is made of a value stops with an error where the value does. -/
lemma map_eq_error {m : Scanner σ α} {f : α → β} {s t : Running σ} {e : EvalError} :
    (m >>= fun a => pure (f a)) s = .error e t ↔ m s = .error e t := by
  rw [bind_eq_error]
  refine ⟨fun h => h.resolve_right ?_, .inl⟩
  rintro ⟨a, u, -, h⟩
  cases h

/-- What is nested stops with an error for want of a level, or on the level below. -/
lemma nested_eq_error {env : Env ω σ} {levels : Nat} {body : Scanner σ Float → Scanner σ α}
    {s t : Running σ} {e : EvalError}
    (hrun : nested env (level env levels) body s = .error e t) :
    t = s ∨ ∃ l, levels = l + 1 ∧ body (operand env l) s = .error e t := by
  cases levels with
  | zero =>
    obtain ⟨-, rfl⟩ := EStateM.Result.error.inj hrun
    exact .inl rfl
  | succ l => exact .inr ⟨l, rfl, hrun⟩

end Scanner

/-- Behind a text that has been moved over, so many characters more lie before the cursor. -/
lemma Cursor.Reaches.position_eq {c c' : Cursor} (h : c.Reaches c') {t : List Char}
    (hrest : c.rest = t ++ c'.rest) : c'.position = c.position + t.length := by
  have hlength : c'.position + c'.rest.length = c.position + c.rest.length := h.length
  rw [hrest, List.length_append] at hlength
  omega

/-! ## Parts of a run -/

/-- **A part of a run** moves over a text, in which calls are completed, draws what these draw, and
leaves the host in a state. -/
structure Passed (s s' : Running (Recorded σ)) (t : List Char) (own : σ) (cs : List Completed) :
    Prop where
  /-- The text has been moved over. -/
  rest : s.cursor.rest = t ++ s'.cursor.rest
  /-- The cursor stands behind it. -/
  position : s'.cursor.position = s.cursor.position + t.length
  /-- The host has been left in the state. -/
  own : s'.host.own = own
  /-- The calls have drawn. -/
  draws : s'.host.draws = s.host.draws ++ draws cs

namespace Passed

variable {s s₁ s' : Running (Recorded σ)} {t u : List Char} {own own' : σ} {cs ds : List Completed}

/-- A part of a run that makes no calls on the host. -/
lemma of_reaches (h : s.cursor.Reaches s'.cursor) (hrest : s.cursor.rest = t ++ s'.cursor.rest)
    (hhost : s'.host = s.host) : Passed s s' t s.host.own [] :=
  ⟨hrest, h.position_eq hrest, by rw [hhost], by rw [hhost]; exact (List.append_nil _).symm⟩

/-- A part of a run whose calls on the host are those of a computation. -/
lemma of_draws {recorded : StateM (Recorded σ) α} {call : StateM σ α}
    (h : s.cursor.Reaches s'.cursor) (hrest : s.cursor.rest = t ++ s'.cursor.rest)
    (hdraws : Draws recorded call s.host (Formula.draws cs)) (hleft : (recorded s.host).2 = s'.host) :
    Passed s s' t (call s.host.own).2 cs :=
  ⟨hrest, h.position_eq hrest, hleft ▸ hdraws.own, hleft ▸ hdraws.record⟩

/-- Moving over a text in front of the cursor. -/
lemma facing (p : Nat) (t cs : List Char) (d d' : Nat) (h : Recorded σ) :
    Passed (.facing p (t ++ cs) d h) (.facing (p + t.length) cs d' h) t h.own [] :=
  ⟨rfl, rfl, rfl, (List.append_nil _).symm⟩

/-- Two parts of a run, one behind the other. -/
lemma trans (h : Passed s s₁ t own cs) (h' : Passed s₁ s' u own' ds) :
    Passed s s' (t ++ u) own' (cs ++ ds) where
  rest := by rw [h.rest, h'.rest, List.append_assoc]
  position := by rw [h'.position, h.position, List.length_append, Nat.add_assoc]
  own := h'.own
  draws := by rw [h'.draws, h.draws, draws_append, List.append_assoc]

/-- The blanks ahead are moved over. -/
lemma settle {w cs : List Char} {p : Nat} (hrest : s.cursor.rest = w ++ cs)
    (hsettle : s.settle = .facing p cs s.depth s.host) :
    Passed s (.facing p cs s.depth s.host) w s.host.own [] := by
  refine of_reaches ?_ hrest rfl
  rw [← hsettle]
  exact .skipWhile Text.isBlank s.cursor

/-- An operator is moved over, in one of its spellings. -/
lemma operator {c : Char} {cs : List Char} {p d : Nat} {h : Recorded σ} {op : Operator}
    (hop : Scanner.operator c (.facing p (c :: cs) d h) = .ok op s') :
    ∃ token ∈ op.spellings, Passed (.facing p (c :: cs) d h) s' token h.own [] := by
  obtain ⟨token, htoken, hcs, -, hhost⟩ := spelling_of_operator hop
  have hreaches := (Forward.operator c).reaches (.facing p (c :: cs) d h)
  rw [hop] at hreaches
  exact ⟨token, htoken, of_reaches hreaches hcs hhost⟩

end Passed

/-- **A run that has stopped in a text that breaks off**, behind what its completed calls draw. -/
def Interrupted (begun : Nat → List Char → σ → List Completed → Prop)
    (s s' : Running (Recorded σ)) : Prop :=
  ∃ t cs, s.cursor.rest = t ++ s'.cursor.rest ∧ begun s.cursor.position t s.host.own cs ∧
    s'.host.draws = s.host.draws ++ draws cs

namespace Interrupted

variable {begun begun' : Nat → List Char → σ → List Completed → Prop}
  {s s₁ s' : Running (Recorded σ)} {t : List Char} {own : σ} {cs : List Completed}

/-- A run that stops behind a part of it. -/
lemma of_passed (h : Passed s s' t own cs) (ht : begun s.cursor.position t s.host.own cs) :
    Interrupted begun s s' :=
  ⟨t, cs, h.rest, ht, h.draws⟩

/-- **A run that stops in a text that breaks off, behind a part of it.** -/
lemma behind (hpassed : Passed s s₁ t own cs) (h : Interrupted begun s₁ s')
    (hbegun : ∀ u ds, s₁.cursor.rest = u ++ s'.cursor.rest →
      begun (s.cursor.position + t.length) u own ds →
        begun' s.cursor.position (t ++ u) s.host.own (cs ++ ds)) :
    Interrupted begun' s s' := by
  obtain ⟨u, ds, hrest, hu, hdraws⟩ := h
  rw [hpassed.position, hpassed.own] at hu
  refine ⟨t ++ u, cs ++ ds, ?_, hbegun u ds hrest hu, ?_⟩
  · rw [hpassed.rest, hrest, List.append_assoc]
  · rw [hdraws, hpassed.draws, draws_append, List.append_assoc]

/-- A text that breaks off in a part breaks off in the whole. -/
lemma imp (h : Interrupted begun s s')
    (hbegun : ∀ t cs, begun s.cursor.position t s.host.own cs →
      begun' s.cursor.position t s.host.own cs) : Interrupted begun' s s' := by
  obtain ⟨t, cs, hrest, ht, hdraws⟩ := h
  exact ⟨t, cs, hrest, hbegun t cs ht, hdraws⟩

end Interrupted

variable {env : Env ω σ} {levels : Nat}

/-! ## Parts that have been read -/

/-- **An operand that has been read completes its calls**, and they draw what the run draws. -/
lemma Operand.passed {s s' : Running (Recorded σ)} {x : Float}
    (hrun : operand env.recorded levels s = .ok x s') :
    ∃ e t cs, e.WellFormed (s'.cursor.rest.head? == some ')') ∧ MayTouch t s'.cursor.rest ∧
      Operand.Completes env s.cursor.position e t s.host.own cs ∧
      Passed s s' t (e.meaning env s.host.own).2 cs := by
  obtain ⟨e, t, he⟩ := sound levels hrun
  obtain ⟨cs, hcs⟩ := he.written.completes env s.cursor.position s.host.own
  have hreaches := (forward_operand env.recorded levels).reaches s
  rw [hrun] at hreaches
  refine ⟨e, t, cs, he.wellFormed, he.mayTouch, hcs, ?_⟩
  exact .of_draws hreaches he.rest (hcs.draws s.host rfl) (congrArg Prod.snd he.meaning)

/-- The character that ends an argument. -/
def argumentMark (last : Bool) : Char :=
  if last then ')' else ','

/-- **An argument that has been read completes its calls**, and they draw what the run draws. -/
lemma Chain.passed_argument {s s' : Running (Recorded σ)} {y : Float} {last : Bool}
    (hrun : argument (operand env.recorded levels) s = .ok (y, last) s') :
    ∃ x t cs, x.WellFormed last ∧ Chain.Completes env s.cursor.position x t s.host.own cs ∧
      Passed s s' (t ++ [argumentMark last]) (x.meaning env s.host.own).2 cs := by
  obtain ⟨x, t, hx⟩ := Chain.derived_argument (sound levels) hrun
  obtain ⟨cs, hcs⟩ := hx.written.completes env s.cursor.position s.host.own
  have hreaches := (forward_operand env.recorded levels).argument.reaches s
  rw [hrun] at hreaches
  have hrest : s.cursor.rest = t ++ [argumentMark last] ++ s'.cursor.rest := by
    rw [hx.rest, List.append_assoc]
    cases last <;> rfl
  have hwf : x.WellFormed last := hx.wellFormed.mono fun h => by
    cases last with
    | true => rfl
    | false => exact absurd h (by decide)
  refine ⟨x, t, cs, hwf, hcs, ?_⟩
  exact .of_draws hreaches hrest (hcs.draws s.host rfl) (congrArg Prod.snd hx.meaning)

/-! ## Parts that break off -/

/-- An operand can be written where no closing parenthesis follows, or where one may. -/
lemma Operand.WellFormed.of_head {e : Operand} {cs : List Char} {last : Bool}
    (hwf : e.WellFormed (cs.head? == some ')')) (hlast : last = false → cs.head? ≠ some ')') :
    e.WellFormed last := by
  refine hwf.mono fun hclose => ?_
  by_contra hnot
  exact hlast (Bool.eq_false_of_not_eq_true hnot) (by simpa using hclose)

/-- A run that closes no call and draws nothing stops in an operand that breaks off. -/
lemma Operand.interrupted_fragment {s s' : Running (Recorded σ)} {t : List Char}
    (ht : Fragment t) (hrest : s.cursor.rest = t ++ s'.cursor.rest)
    (hdraws : s'.host.draws = s.host.draws) : Interrupted (Operand.Begun env) s s' :=
  ⟨t, [], hrest, .fragment ht, hdraws.trans (List.append_nil _).symm⟩

/-- **Levels whose operands break off** where they stop with an error. -/
def Scanner.Interruptible (env : Env ω σ) (levels : Nat) : Prop :=
  ∀ {s s' : Running (Recorded σ)} {error : EvalError},
    operand env.recorded levels s = .error error s' → Interrupted (Operand.Begun env) s s'

/-- No closing parenthesis lies ahead of blanks and another character. -/
lemma head?_ne_close {w cs : List Char} {c : Char} (hw : Blanks w) (hc : c ≠ ')') :
    (w ++ c :: cs).head? ≠ some ')' := by
  cases w with
  | nil => simpa using hc
  | cons b w =>
    intro h
    obtain rfl : b = ')' := by simpa using h
    exact absurd (hw ')' List.mem_cons_self) (by decide)

section

variable (hlevels : Interruptible env levels)

include hlevels

/-- **Links that stop with an error break off**, and what stands before them can be written there.

**Proof sketch.** Induction on the text ahead. Behind the blanks ahead there is neither an end nor
an operator, or the operand behind the operator stops with the error, or it is read, and the text
behind it is shorter. -/
lemma Links.interrupted {scope : Scope} {value : Float} {error : EvalError}
    {s s' : Running (Recorded σ)}
    (hrun : links env.recorded levels scope value s = .error error s') :
    ∃ last, Interrupted (Links.Begun env last) s s' ∧
      (last = false → s.cursor.rest.head? ≠ some ')') := by
  induction hn : s.cursor.rest.length using Nat.strongRecOn generalizing s value with
  | ind n ih =>
    subst hn
    obtain ⟨p, w, cs, hw, hrest, hhead, hsettle⟩ := s.exists_settle
    have hpassed := Passed.settle hrest hsettle
    have hstop (h : s' = .facing p cs s.depth s.host) : ∃ last,
        Interrupted (Links.Begun env last) s s' ∧
          (last = false → s.cursor.rest.head? ≠ some ')') := by
      subst h
      exact ⟨true, .of_passed hpassed (.stop hw), fun h => by cases h⟩
    rw [← links_settle, hsettle] at hrun
    cases cs with
    | nil =>
      rw [links_nil, endOfText] at hrun
      split_ifs at hrun
      · cases hrun
      · exact hstop (EStateM.Result.error.inj hrun).2.symm
    | cons c cs =>
      by_cases hclose : c = ')'
      · subst hclose
        rw [links_close, map_eq_error, closeParen_apply] at hrun
        split_ifs at hrun
        exact hstop (EStateM.Result.error.inj hrun).2.symm
      by_cases hcomma : c = ',' ∧ scope = .argument
      · obtain ⟨rfl, rfl⟩ := hcomma
        rw [links_comma] at hrun
        cases hrun
      rw [links_operator _ levels scope (hhead c rfl) hclose hcomma] at hrun
      rcases bind_eq_error.mp hrun with hop | ⟨op, s₁, hop, hrun⟩
      · rw [operator_apply] at hop
        split at hop
        · cases hop
        · exact hstop (EStateM.Result.error.inj hop).2.symm
      obtain ⟨token, htoken, hpassed'⟩ := Passed.operator hop
      have hpassed₁ : Passed s s₁ (w ++ token) s.host.own [] := hpassed.trans hpassed'
      refine ⟨false, ?_, fun _ => hrest ▸ head?_ne_close hw hclose⟩
      rcases bind_eq_error.mp hrun with hy | ⟨y, s₂, hy, hrun⟩
      · refine .behind hpassed₁ (hlevels hy) fun u ds _ hu => ?_
        exact .right hw htoken hu
      obtain ⟨e, t, cs', hwf, htouch, he, hpassed₂⟩ := Operand.passed hy
      have hlength : s₂.cursor.rest.length < s.cursor.rest.length := by
        have h₁ := length_rest_of_operator hop
        have h₂ := congrArg List.length hpassed₂.rest
        have h₃ := congrArg List.length hrest
        simp only [List.length_append, List.length_cons] at h₂ h₃
        omega
      obtain ⟨last, hlinks, hlast⟩ := ih _ hlength hrun rfl
      rw [hpassed₁.position, hpassed₁.own] at he
      rw [hpassed₁.own] at hpassed₂
      refine .behind (hpassed₁.trans hpassed₂) hlinks fun u ds hu hbegun => ?_
      exact .cons hw htoken (hwf.of_head hlast) he hbegun (MayTouch.of_append (hu ▸ htouch))

/-- **Chains that stop with an error break off.** -/
lemma Chain.interrupted {scope : Scope} {error : EvalError} {s s' : Running (Recorded σ)}
    (hrun : chain (operand env.recorded levels) scope s = .error error s') :
    Interrupted (Chain.Begun env) s s' := by
  rw [chain_eq] at hrun
  rcases bind_eq_error.mp hrun with hx | ⟨x, s₁, hx, hrun⟩
  · exact (hlevels hx).imp fun _ _ => .first
  obtain ⟨e, t, cs, hwf, htouch, he, hpassed⟩ := Operand.passed hx
  obtain ⟨last, hlinks, hlast⟩ := Links.interrupted hlevels hrun
  refine .behind hpassed hlinks fun u ds hu hbegun => ?_
  exact .links (hwf.of_head hlast) he hbegun (MayTouch.of_append (hu ▸ htouch))

/-- An argument that stops with an error breaks off. -/
lemma Chain.interrupted_argument {error : EvalError} {s s' : Running (Recorded σ)}
    (hrun : argument (operand env.recorded levels) s = .error error s') :
    Interrupted (Chain.Begun env) s s' :=
  Chain.interrupted hlevels (map_eq_error.mp hrun)

/-- **Arguments that stop with an error break off**, or there is a wrong number of them. -/
lemma Arguments.interrupted {f : Builtin} {error : EvalError} {s s' : Running (Recorded σ)}
    (hrun : arguments f (operand env.recorded levels) s = .error error s') :
    Interrupted (Arguments.Begun env f) s s' := by
  rw [arguments_eq] at hrun
  rcases bind_eq_error.mp hrun with hx | ⟨⟨y, last⟩, s₁, hx, hrun⟩
  · exact (Chain.interrupted_argument hlevels hx).imp fun _ _ => .first
  obtain ⟨x, t, cs, hwf, hcs, hpassed⟩ := Chain.passed_argument hx
  have hsecond (harity : f.arity ≠ .one) (hlast : last = false)
      (hbehind : secondArgument f (operand env.recorded levels) y s₁ = .error error s') :
      Interrupted (Arguments.Begun env f) s s' := by
    subst hlast
    rcases bind_eq_error.mp hbehind with hz | ⟨⟨z, last⟩, s₂, hz, hbehind⟩
    · refine .behind hpassed (Chain.interrupted_argument hlevels hz) fun u ds _ hu => ?_
      exact .second harity hwf hcs hu
    cases last with
    | true => cases hbehind
    | false =>
      obtain ⟨-, rfl⟩ := EStateM.Result.error.inj hbehind
      obtain ⟨x', u, ds, hwf', hds, hpassed'⟩ := Chain.passed_argument hz
      rw [hpassed.position, hpassed.own] at hds
      have hall := hpassed.trans hpassed'
      rw [← List.append_assoc] at hall
      exact .of_passed hall (.thirdComma harity hwf hwf' hcs hds)
  unfold furtherArguments Builtin.take at hrun
  cases harity : f.arity <;> cases last <;> simp only [harity] at hrun
  case one.true | oneOrTwo.true => cases hrun
  case one.false =>
    obtain ⟨-, rfl⟩ := EStateM.Result.error.inj hrun
    exact .of_passed hpassed (.tooMany harity hwf hcs)
  case two.true =>
    obtain ⟨-, rfl⟩ := EStateM.Result.error.inj hrun
    exact .of_passed hpassed (.tooFew harity hwf hcs)
  case two.false | oneOrTwo.false => exact hsecond (by rw [harity]; decide) rfl hrun

end

/-- **A call that stops with an error breaks off**, before its arguments or in them; once it has
them, nothing goes wrong. -/
lemma Operand.interrupted_call (hbelow : ∀ l, levels = l + 1 → Interruptible env l)
    {error : EvalError} {s s' : Running (Recorded σ)}
    (hrun : call env.recorded (level env.recorded levels) s = .error error s') :
    Interrupted (Operand.Begun env) s s' := by
  rcases call_eq_error hrun with ⟨t, ht, hrest, hhost⟩ | ⟨f, o, cs, ho, hrest, hrun⟩
  · exact Operand.interrupted_fragment (.plain ht) hrest (congrArg Recorded.draws hhost)
  have hpassed : Passed s (.facing (s.cursor.position + o.length) cs (s.depth + 1) s.host) o
      s.host.own [] := ⟨hrest, rfl, rfl, (List.append_nil _).symm⟩
  rcases bind_eq_error.mp hrun with hargs | ⟨args, s₁, hargs, hrun⟩
  · rcases nested_eq_error hargs with rfl | ⟨l, hl, hargs⟩
    · exact .of_passed hpassed (.fragment (.plain ho.not_mem))
    · refine .behind hpassed (Arguments.interrupted (hbelow l hl) hargs) fun u ds _ hu => ?_
      exact .call ho hu
  · obtain ⟨l, -, hargs⟩ := (nested_eq_ok env.recorded levels).mp hargs
    rcases arguments_eq_ok hargs with ⟨y, harity, rfl, -⟩ | ⟨y, z, u, harity, rfl, -, -⟩
    · rw [invoke_apply _ (admits_one harity y)] at hrun
      cases hrun
    · rw [invoke_apply _ (admits_two harity y z)] at hrun
      cases hrun

/-- Behind one character, a nested part of an operand that stops with an error breaks off. -/
lemma Operand.interrupted_nested {body : Scanner (Recorded σ) Float → Scanner (Recorded σ) α}
    {begun : Nat → List Char → σ → List Completed → Prop} {c : Char} (hc : c ≠ ')')
    {p d d' : Nat} {cs : List Char} {h : Recorded σ} {error : EvalError}
    {s' : Running (Recorded σ)}
    (hbody : ∀ l, levels = l + 1 →
      body (operand env.recorded l) (.facing (p + 1) cs d' h) = .error error s' →
        Interrupted begun (.facing (p + 1) cs d' h) s')
    (hbegun : ∀ u ds, begun (p + 1) u h.own ds → Operand.Begun env p (c :: u) h.own ds)
    (hrun : nested env.recorded (level env.recorded levels) body (.facing (p + 1) cs d' h) =
      .error error s') : Interrupted (Operand.Begun env) (.facing p (c :: cs) d h) s' := by
  have hpassed := Passed.facing p [c] cs d d' h
  rcases nested_eq_error hrun with rfl | ⟨l, hl, hrun⟩
  · refine .of_passed hpassed (.fragment (.plain ?_))
    simpa using hc.symm
  · exact .behind hpassed (hbody l hl hrun) fun u ds _ hu => hbegun u ds hu

/-- **Operands of a level break off if those of the level below do**, by their first character. -/
lemma Scanner.interrupted_step (hbelow : ∀ l, levels = l + 1 → Interruptible env l) :
    Interruptible env levels := by
  intro s s' error hrun
  obtain ⟨p, w, cs, hw, hrest, hhead, hsettle⟩ := s.exists_settle
  have hpassed := Passed.settle hrest hsettle
  suffices hsettled : Interrupted (Operand.Begun env) (.facing p cs s.depth s.host) s' by
    exact .behind hpassed hsettled fun u ds _ hu => hu.blanks hw
  rw [← operand_settle, hsettle] at hrun
  have hstill (h : s' = .facing p cs s.depth s.host) :
      Interrupted (Operand.Begun env) (.facing p cs s.depth s.host) s' := by
    subst h
    exact Operand.interrupted_fragment (.plain List.not_mem_nil) rfl rfl
  cases cs with
  | nil =>
    rw [operand_eq, operandWith_nil] at hrun
    exact hstill (EStateM.Result.error.inj hrun).2.symm
  | cons c cs =>
    by_cases hdigit : c.isDigit = true
    · rw [operand_digit _ levels _ _ _ _ hdigit] at hrun
      obtain ⟨t, ht, hrest, hdraws⟩ := Skims.number.of_error hrun
      exact Operand.interrupted_fragment (.plain ht) hrest hdraws
    by_cases halpha : c.isAlpha = true
    · rw [operand_alpha _ levels _ _ _ _ halpha] at hrun
      exact Operand.interrupted_call hbelow hrun
    by_cases hother : c ∈ ['$', '(', '+', '-', ')']
    · simp only [List.mem_cons, List.not_mem_nil, or_false] at hother
      rcases hother with rfl | rfl | rfl | rfl | rfl
      · rw [operand_mark] at hrun
        obtain ⟨t, ht, hrest, hdraws⟩ := fragment_of_reference env hrun
        exact Operand.interrupted_fragment ht (congrArg (List.cons '$') hrest) hdraws
      · rw [operand_open, map_eq_error] at hrun
        exact Operand.interrupted_nested (by decide)
          (fun l hl => Chain.interrupted (hbelow l hl)) (fun _ _ => .group) hrun
      · rw [operand_plus] at hrun
        exact Operand.interrupted_nested (by decide)
          (fun l hl hrun => hbelow l hl hrun) (fun _ _ => .sign (.inl rfl)) hrun
      · rw [operand_minus, map_eq_error] at hrun
        exact Operand.interrupted_nested (by decide)
          (fun l hl hrun => hbelow l hl hrun) (fun _ _ => .sign (.inr rfl)) hrun
      · rw [operand_close] at hrun
        cases hrun
    · rw [operand_other _ levels _ _ _ _ (hhead c rfl) (by simpa using hdigit)
        (by simpa using halpha) hother] at hrun
      exact hstill (EStateM.Result.error.inj hrun).2.symm

/-- **Operands that stop with an error break off**, on all levels. -/
theorem Scanner.interrupted (env : Env ω σ) (levels : Nat) : Interruptible env levels := by
  induction levels with
  | zero => exact interrupted_step fun l hl => absurd hl.symm (Nat.succ_ne_zero l)
  | succ l ih => exact interrupted_step fun k hk => Nat.succ.inj hk ▸ ih

/-! ## Whole texts -/

/-- A host with a record gives the same answers. -/
lemma Env.alike_recorded (env : Env ω σ) :
    Env.Alike (fun (s : Recorded σ) own => s.own = own) env.recorded env where
  context := rfl
  tick := rfl
  maxDepth := rfl
  number _ := by rintro s _ rfl; exact ⟨rfl, rfl⟩
  member _ _ := by rintro s _ rfl; exact ⟨rfl, rfl⟩
  component _ _ := by rintro s _ rfl; exact ⟨rfl, rfl⟩
  uniform _ _ := by rintro s _ rfl; exact ⟨rfl, rfl⟩
  integer _ _ := by rintro s _ rfl; exact ⟨rfl, rfl⟩

/-- A whole text that is read is that of an expression, and what is drawn is what the calls that it
completes draw. -/
lemma formula_completes {text : List Char} {host : σ} {v : Float} {s : Running (Recorded σ)}
    (hrun : formula env.recorded (.facing 0 text 0 ⟨[], host⟩) = .ok v s) :
    ∃ (x : Chain) (cs : List Completed), Chain.Written x text ∧ x.WellFormed false ∧
      Chain.Completes env 0 x text host cs ∧ s.host.draws = draws cs := by
  obtain ⟨x, hwritten, hwf, -, hmeaning⟩ := formula_derived hrun
  obtain ⟨cs, hcs⟩ := hwritten.completes env 0 host
  have hdraws := (hcs.draws ⟨[], host⟩ rfl).record
  rw [hmeaning] at hdraws
  exact ⟨x, cs, hwritten, hwf, hcs, hdraws⟩

/-- A whole text that stops with an error breaks off where it stops. -/
lemma formula_begun {text : List Char} {host : σ} {error : EvalError} {s : Running (Recorded σ)}
    (hrun : formula env.recorded (.facing 0 text 0 ⟨[], host⟩) = .error error s) :
    ∃ cs, Chain.Begun env 0 (text.take s.cursor.position) host cs ∧ s.host.draws = draws cs := by
  have hreaches := (forward_formula env.recorded).reaches (.facing 0 text 0 ⟨[], host⟩)
  rw [hrun] at hreaches
  rcases bind_eq_error.mp hrun with hchain | ⟨r, s₁, -, hrun⟩
  · obtain ⟨t, cs, hrest, hbegun, hdraws⟩ := Chain.interrupted (interrupted env _) hchain
    have hposition : s.cursor.position = 0 + t.length := hreaches.position_eq hrest
    have htext : text = t ++ s.cursor.rest := hrest
    refine ⟨cs, ?_, hdraws⟩
    rw [htext, hposition, Nat.zero_add, List.take_left]
    exact hbegun
  · cases hrun

/-- **What an evaluation draws** is what its completed calls draw, one draw for each call of a
random function, with the values of its arguments as bounds, in the order in which the closing
parentheses of the calls stand in the text.

When the evaluation gives a value, these are all calls of the expression that the text writes. When
it stops with an error, they are those that are completed in the text up to there; a call that is
rejected for the number of its arguments is not among them. In neither case do the operators of a
chain matter, nor the values before them.

**Proof sketch.** A run that gives a value is that of an expression, by soundness, and a run that
stops with an error breaks off, on the level of a whole text. With a record an evaluation gives the
same result. -/
theorem eval_draws (e : Evaluator) (env : Env ω σ) (text : String) (host : σ) :
    ∃ calls : List Completed,
      (e.eval env.recorded text ⟨[], host⟩).2.2.draws = draws calls ∧
        match (e.eval env text host).1 with
        | .ok _ => InOrder 0 text.toList calls ∧
            ∃ x : Chain, Chain.Written x text.toList ∧ x.WellFormed false ∧
              Chain.Completes env 0 x text.toList host calls ∧
                calls.map Completed.function = x.functions
        | .error error => ∃ q, StopsAt env text host error q ∧
            InOrder 0 (text.toList.take q) calls ∧
              Chain.Begun env 0 (text.toList.take q) host calls := by
  have hsame : (e.eval env.recorded text ⟨[], host⟩).1 = (e.eval env text host).1 :=
    (env.alike_recorded.eval e text ⟨[], host⟩ host rfl).1
  rw [← hsame, Evaluator.eval_eq]
  cases hrun : formula env.recorded (.facing 0 text.toList 0 ⟨[], host⟩) with
  | ok v s =>
    obtain ⟨x, cs, hwritten, hwf, hcs, hdraws⟩ := formula_completes hrun
    exact ⟨cs, hdraws, hcs.inOrder, x, hwritten, hwf, hcs, hcs.functions⟩
  | error error s =>
    obtain ⟨cs, hbegun, hdraws⟩ := formula_begun hrun
    have hstop : StopsAt env.recorded text ⟨[], host⟩ error s.cursor.position := ⟨s, hrun, rfl⟩
    have hlimit : env.recorded.maxDepth = env.maxDepth := rfl
    exact ⟨cs, hdraws, _, hstop.of_env hlimit host, hbegun.inOrder, hbegun⟩

/-- Both operands of a logical operator draw, and so does an argument of a call that is rejected. -/
example : (Evaluator.blank.eval (Env.recorded (.ofDocument .null 2)) "1 || rand(2) + atan2(rand(3))"
    ⟨[], (5 : Generator)⟩).2.2.draws.length = 2 := by decide +kernel

end Formula
