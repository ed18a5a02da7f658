import Formula.Proofs.Completeness
import Formula.Proofs.Soundness

set_option relaxedAutoImplicit false
set_option autoImplicit false

/-!
# The limit of nesting

The limit decides whether an evaluation is refused for its depth and nothing else. Runs of one text
with two limits agree up to the first level that the lower one lacks, so there is a number of levels
below which the text is refused and from which on it always comes to the same. Each level is opened
by a character, so as many levels as characters are enough; and each pair of parentheses around a
text takes one level more.

## Main definitions

* `Formula.Evaluator.evalWithin` — evaluation with a given limit.
* `Formula.HasThreshold` — the levels that a text needs, and what it comes to with them.
* `Formula.parenthesized` — a text in parentheses.

## Main results

* `Formula.eval_tooDeep_or_eq` — a higher limit changes nothing but refusals.
* `Formula.Scanner.fitsWithin` — as many levels as characters are enough.
* `Formula.hasThreshold_written` — the threshold of an expression is its nesting.
* `Formula.nesting_threshold` — every text has a threshold, and parentheses raise it by one each.
-/

namespace Formula

open Scanner

variable {ω σ α β : Type}

/-! ## Two limits -/

/-- **Evaluation with a given limit.** -/
def Evaluator.evalWithin (e : Evaluator) (env : Env ω σ) (maxDepth : Nat) (text : String)
    (host : σ) : Except EvalError Float × Evaluator × σ :=
  e.eval { env with maxDepth := maxDepth } text host

/-- **A higher limit changes nothing but refusals**: what is not refused for its depth comes to the
same with every higher limit.

**Proof sketch.** The two runs are in lockstep as long as there are levels in both, and only the one
with the lower limit may lack one. -/
theorem eval_tooDeep_or_eq (e e' : Evaluator) (env : Env ω σ) {d d' : Nat} (hle : d ≤ d')
    (text : String) (host : σ) :
    (e.evalWithin env d text host).1 = .error (.tooDeep d) ∨
      e.evalWithin env d text host = e'.evalWithin env d' text host ∧
        ∀ limit, (e.evalWithin env d text host).1 ≠ .error (.tooDeep limit) := by
  let C : Coupling σ σ := .same σ text.toList (fun e₁ e₂ => e₁ = e₂ ∧ ∀ limit, e₁ ≠ .tooDeep limit)
    (· = .tooDeep d)
  have hC : C.Respects { env with maxDepth := d } { env with maxDepth := d' } :=
    Coupling.same_respects (fun h => ⟨rfl, h⟩) (fun _ _ => rfl) fun _ _ _ _ => rfl
  have hlock : C.Lockstep C.values _ _ := Coupling.Lockstep.formula hC (.inr ⟨hle, rfl⟩)
  have hout := hlock (.facing 0 text.toList 0 host) (.facing 0 text.toList 0 host)
    ⟨rfl, rfl, List.suffix_rfl, rfl⟩
  simp only [Evaluator.evalWithin, Evaluator.eval_eq]
  generalize formula { env with maxDepth := d } (.facing 0 text.toList 0 host) = r at hout ⊢
  generalize formula { env with maxDepth := d' } (.facing 0 text.toList 0 host) = r' at hout ⊢
  cases hout with
  | ok hx ht =>
    obtain rfl := ht.eq
    obtain rfl := hx
    exact .inr ⟨rfl, by simp⟩
  | error he ht =>
    obtain rfl := ht.eq
    obtain ⟨rfl, hne⟩ := he
    exact .inr ⟨rfl, fun limit h => hne limit (Except.error.inj h)⟩
  | escape he =>
    obtain rfl := he
    exact .inl rfl

/-! ## Enough levels -/

namespace Scanner

/-- **A run lacks no levels.** -/
def Fits (r : EStateM.Result EvalError (Running σ) α) : Prop :=
  ∀ limit s, r ≠ .error (.tooDeep limit) s

namespace Fits

/-- A value lacks no levels. -/
protected lemma ok (a : α) (s : Running σ) : Fits (.ok a s) := by
  intro limit t h
  cases h

/-- Other errors lack no levels. -/
protected lemma error {e : EvalError} (he : ∀ limit, e ≠ .tooDeep limit) (s : Running σ) :
    Fits (.error e s : EStateM.Result EvalError (Running σ) α) := by
  intro limit t h
  obtain ⟨rfl, rfl⟩ := EStateM.Result.error.inj h
  exact he limit rfl

/-- A malformed text lacks no levels. -/
protected lemma malformed (p : Nat) (v : Violation) (s : Running σ) :
    Fits (.error (.malformed p v) s : EStateM.Result EvalError (Running σ) α) :=
  .error (EvalError.malformed_ne_tooDeep p v) s

/-- A sequence lacks no levels if neither of its parts does. -/
protected lemma bind {m : Scanner σ α} {f : α → Scanner σ β} {s : Running σ} (hm : Fits (m s))
    (hf : ∀ a t, m s = .ok a t → Fits (f a t)) : Fits ((m >>= f) s) := by
  rw [bind_apply]
  cases hrun : m s with
  | ok a t => exact hf a t hrun
  | error e t =>
    intro limit u h
    obtain ⟨rfl, rfl⟩ := EStateM.Result.error.inj h
    exact hm _ _ hrun

/-- Computing with a value lacks no levels. -/
protected lemma map {m : Scanner σ α} {s : Running σ} (hm : Fits (m s)) (f : α → β) :
    Fits ((m >>= fun a => pure (f a)) s) :=
  hm.bind fun a t _ => .ok (f a) t

/-- Literals lack no levels. -/
protected lemma number (s : Running σ) : Fits (number s) := by
  rw [number_apply]
  cases Literal.scan s.cursor with
  | done literal stop => exact .ok _ _
  | refused violation stop => exact .malformed _ _ _

/-- Operators lack no levels. -/
protected lemma operator (c : Char) (s : Running σ) : Fits (operator c s) := by
  rw [operator_apply]
  cases Operator.read? c s.cursor.next with
  | none => exact .malformed _ _ _
  | some found => exact .ok _ _

/-- Closing parentheses lack no levels. -/
protected lemma closeParen (s : Running σ) : Fits (closeParen s) := by
  rw [closeParen_apply]
  split_ifs
  · exact .malformed _ _ _
  · exact .ok _ _

/-- What is accepted lacks no levels. -/
protected lemma accept (c : Char) (s : Running σ) : Fits (accept c s) := by
  rw [accept_apply]
  split_ifs
  · exact .ok _ _
  · exact .ok _ _

/-- **References lack no levels**, since their errors are related to themselves under a coupling
that leaves that error out. -/
protected lemma reference (env : Env ω σ) (s : Running σ) : Fits (reference env s) := by
  intro limit t h
  have hfree : (Coupling.free σ σ s.cursor.rest fun e _ => ∀ limit, e ≠ .tooDeep limit).Outcome
      (fun _ _ => True) (reference env s) (reference env s) :=
    Coupling.Lockstep.reference_free (fun h => h) env env s s ⟨rfl, rfl, List.suffix_rfl, trivial⟩
  rw [h] at hfree
  cases hfree with
  | error he _ => exact he limit rfl
  | escape he => exact he

/-- Calling a function lacks no levels. -/
protected lemma invoke {env : Env ω σ} (f : Builtin) (args : Arguments) (s : Running σ) :
    Fits (invoke env f args s) := by
  rw [Scanner.invoke, bind_of_ok (onHost_apply _ _)]
  cases (f.call env.random args s.host).1 with
  | none => exact .error (EvalError.argumentCount_ne_tooDeep f) _
  | some x => exact .ok _ _

end Fits

/-- **Levels fit a number of characters** if no operand lacks levels in front of so many. -/
def FitsWithin (env : Env ω σ) (levels n : Nat) : Prop :=
  ∀ s : Running σ, s.cursor.rest.length ≤ n → Fits (operand env levels s)

section

variable {env : Env ω σ} {levels n : Nat} (h : FitsWithin env levels n)

include h

/-- Links lack no levels if their operands do not. -/
lemma links_fits (scope : Scope) (r : Float) {s : Running σ} (hs : s.cursor.rest.length ≤ n) :
    Fits (links env levels scope r s) := by
  induction hm : s.cursor.rest.length using Nat.strongRecOn generalizing s r with
  | ind m ih =>
    subst hm
    obtain ⟨p, w, cs, hw, hrest, hhead, hsettle⟩ := s.exists_settle
    rw [← links_settle, hsettle]
    cases cs with
    | nil =>
      rw [links_nil, endOfText]
      split_ifs
      · exact .ok _ _
      · exact .malformed _ _ _
    | cons c cs =>
      by_cases hclose : c = ')'
      · subst hclose
        rw [links_close]
        exact (Fits.closeParen _).map fun _ => (r, Ending.close)
      · by_cases hcomma : c = ',' ∧ scope = .argument
        · obtain ⟨rfl, rfl⟩ := hcomma
          rw [links_comma]
          exact .ok _ _
        · rw [links_operator env levels scope (hhead c rfl) hclose hcomma]
          have hlength := congrArg List.length hrest
          simp only [List.length_append, List.length_cons] at hlength
          refine (Fits.operator _ _).bind fun op t hop => ?_
          have hop' := length_rest_of_operator hop
          refine (h t (by omega)).bind fun x u hx => ?_
          have hx' := (operand_suffix env levels hx).length_le
          exact ih _ (by omega) _ (by omega) rfl

/-- Chains lack no levels if their operands do not. -/
lemma chain_fits (scope : Scope) {s : Running σ} (hs : s.cursor.rest.length ≤ n) :
    Fits (chain (operand env levels) scope s) := by
  rw [chain_eq]
  refine (h s hs).bind fun x t hx => links_fits h scope x ?_
  exact (operand_suffix env levels hx).length_le.trans hs

/-- Arguments lack no levels if operands do not. -/
lemma argument_fits {s : Running σ} (hs : s.cursor.rest.length ≤ n) :
    Fits (argument (operand env levels) s) :=
  (chain_fits h .argument hs).map fun r => (r.1, r.2 == .close)

/-- The arguments of a call lack no levels if operands do not. -/
lemma arguments_fits (f : Builtin) {s : Running σ} (hs : s.cursor.rest.length ≤ n) :
    Fits (arguments f (operand env levels) s) := by
  rw [arguments_eq]
  refine (argument_fits h hs).bind fun a t ha => ?_
  obtain ⟨c, u, hc⟩ := Chain.derived_argument (sound levels) ha
  have hlength := congrArg List.length hc.rest
  simp only [List.length_append] at hlength
  have hcount (t : Running σ) : Fits ((throw (.argumentCount f) : Scanner σ Arguments) t) :=
    .error (EvalError.argumentCount_ne_tooDeep f) t
  unfold furtherArguments
  cases f.take none a.1 a.2 with
  | complete args => exact .ok args t
  | wrong => exact hcount t
  | more =>
    refine (argument_fits h (by omega)).bind fun b t _ => ?_
    cases b.2 with
    | false => exact hcount t
    | true => exact .ok _ _

/-- A call lacks no levels if its arguments do not: its parenthesis is a character less ahead. -/
lemma call_fits {s : Running σ} (hs : s.cursor.rest.length ≤ n + 1) :
    Fits (call env (some (operand env levels)) s) := by
  rw [call_apply]
  let behind : Running σ := { s with cursor := s.cursor.skipWhile Char.isAlphanum }
  have hlength : behind.settle.cursor.rest.length ≤ n + 1 := by
    have hname : behind.cursor.rest.length ≤ s.cursor.rest.length :=
      (List.dropWhile_suffix _).length_le
    have hblanks := behind.length_rest_settle_le
    omega
  refine (Fits.accept '(' _).bind fun opened u hopen => ?_
  obtain ⟨hrest, -, -⟩ := rest_of_accept hopen
  cases opened with
  | false => exact .malformed _ _ _
  | true =>
    have hu : u.cursor.rest.length ≤ n := by
      rw [hrest] at hlength
      simpa using hlength
    simp only [if_true]
    cases Builtin.named? (String.ofList (Text.lower (s.cursor.run Char.isAlphanum))) with
    | none => exact .error (EvalError.unknownFunction_ne_tooDeep _) _
    | some f =>
      have hargs : Fits (arguments f (operand env levels) { u with depth := u.depth + 1 }) :=
        arguments_fits h f hu
      exact hargs.bind fun args t _ => .invoke f args t

end

/-- **A level fits the characters above it if the level below fits one character less.** -/
lemma fitsWithin_step {env : Env ω σ} {levels : Nat}
    (hbelow : ∀ l, levels = l + 1 → FitsWithin env l l) : FitsWithin env levels levels := by
  intro s hs
  obtain ⟨p, w, cs, hw, hrest, hhead, hsettle⟩ := s.exists_settle
  rw [← operand_settle, hsettle]
  cases cs with
  | nil =>
    rw [operand_eq, operandWith_nil]
    exact .malformed _ _ _
  | cons c cs =>
    have hlength := congrArg List.length hrest
    simp only [List.length_append, List.length_cons] at hlength
    obtain ⟨l, rfl⟩ : ∃ l, levels = l + 1 := ⟨levels - 1, by omega⟩
    have hone := hbelow l rfl
    have hcs : cs.length ≤ l := by omega
    by_cases hdigit : c.isDigit = true
    · rw [operand_digit env _ _ _ _ _ hdigit]
      exact .number _
    by_cases halpha : c.isAlpha = true
    · rw [operand_alpha env _ _ _ _ _ halpha]
      exact call_fits hone (by simpa using hcs)
    by_cases hother : c ∈ ['$', '(', '+', '-', ')']
    · simp only [List.mem_cons, List.not_mem_nil, or_false] at hother
      rcases hother with rfl | rfl | rfl | rfl | rfl
      · rw [operand_mark]
        exact .reference env _
      · rw [operand_open]
        exact (chain_fits hone .group hcs).map Prod.fst
      · rw [operand_plus]
        exact hone _ hcs
      · rw [operand_minus]
        exact (hone _ hcs).map fun x => -x
      · rw [operand_close]
        exact .ok _ _
    · rw [operand_other env _ _ _ _ _ (hhead c rfl) (by simpa using hdigit)
        (by simpa using halpha) hother]
      exact .malformed _ _ _

/-- **As many levels as characters ahead are enough.** -/
lemma fitsWithin (env : Env ω σ) (levels : Nat) : FitsWithin env levels levels := by
  induction levels with
  | zero => exact fitsWithin_step fun l hl => absurd hl.symm (Nat.succ_ne_zero l)
  | succ l ih => exact fitsWithin_step fun k hk => Nat.succ.inj hk ▸ ih

end Scanner

/-- **A text that is no longer than the limit is not refused for its depth.** -/
theorem eval_ne_tooDeep (e : Evaluator) (env : Env ω σ) {d : Nat} {text : String}
    (hd : text.length ≤ d) (host : σ) (limit : Nat) :
    (e.evalWithin env d text host).1 ≠ .error (.tooDeep limit) := by
  have hlength : text.toList.length ≤ d := by rwa [String.length_toList]
  have hfits : Fits (formula { env with maxDepth := d } (.facing 0 text.toList 0 host)) :=
    (chain_fits (fitsWithin _ d) .whole hlength).map Prod.fst
  simp only [Evaluator.evalWithin, Evaluator.eval_eq]
  cases hrun : formula { env with maxDepth := d } (.facing 0 text.toList 0 host) with
  | ok x s => simp
  | error e s =>
    intro h
    obtain rfl := Except.error.inj h
    exact hfits _ _ hrun

/-! ## Thresholds -/

/-- **The levels that a text needs**, and what it comes to with them: with fewer levels it is
refused for its depth, and with all others it comes to the same, which is no such refusal. -/
structure HasThreshold (env : Env ω σ) (text : String) (host : σ) (levels : Nat)
    (result : Except EvalError Float × Evaluator × σ) : Prop where
  /-- The result is no refusal for a depth. -/
  ne_tooDeep : ∀ limit, result.1 ≠ .error (.tooDeep limit)
  /-- With fewer levels the text is refused. -/
  below : ∀ (e : Evaluator) (d : Nat), d < levels →
    (e.evalWithin env d text host).1 = .error (.tooDeep d)
  /-- With enough levels it comes to the result. -/
  enough : ∀ (e : Evaluator) (d : Nat), levels ≤ d → e.evalWithin env d text host = result

/-- **Every text has a threshold**, which is no greater than its length.

**Proof sketch.** It is the least limit with which the text is not refused; as many levels as
characters are enough for that. -/
lemma exists_hasThreshold (env : Env ω σ) (text : String) (host : σ) :
    ∃ levels ≤ text.length, ∃ result, HasThreshold env text host levels result := by
  classical
  let Passes (d : Nat) : Prop :=
    ∀ limit, (Evaluator.blank.evalWithin env d text host).1 ≠ .error (.tooDeep limit)
  have henough : Passes text.length := eval_ne_tooDeep .blank env (Nat.le_refl _) host
  have hexists : ∃ d, Passes d := ⟨_, henough⟩
  refine ⟨Nat.find hexists, Nat.find_min' hexists henough,
    Evaluator.blank.evalWithin env (Nat.find hexists) text host, Nat.find_spec hexists, ?_, ?_⟩
  · intro e d hd
    rcases eval_tooDeep_or_eq e .blank env (Nat.le_refl d) text host with h | ⟨heq, hne⟩
    · exact h
    · rw [heq] at hne
      exact absurd hne (Nat.find_min hexists hd)
  · intro e d hd
    rcases eval_tooDeep_or_eq .blank e env hd text host with h | ⟨heq, -⟩
    · exact absurd h (Nat.find_spec hexists _)
    · exact heq.symm

/-- A text has one threshold, and comes to one result. -/
lemma HasThreshold.unique {env : Env ω σ} {text : String} {host : σ} {n n' : Nat}
    {r r' : Except EvalError Float × Evaluator × σ} (h : HasThreshold env text host n r)
    (h' : HasThreshold env text host n' r') : n = n' ∧ r = r' := by
  have hr : r = r' := by
    rw [← h.enough .blank (max n n') (by omega), h'.enough .blank (max n n') (by omega)]
  subst hr
  have hle : n ≤ n' := by
    by_contra hlt
    have hbelow := h.below .blank n' (by omega)
    rw [h'.enough .blank n' (Nat.le_refl _)] at hbelow
    exact h.ne_tooDeep _ hbelow
  have hge : n' ≤ n := by
    by_contra hlt
    have hbelow := h'.below .blank n (by omega)
    rw [h.enough .blank n (Nat.le_refl _)] at hbelow
    exact h.ne_tooDeep _ hbelow
  exact ⟨by omega, rfl⟩

/-! ## Thresholds of expressions -/

mutual

/-- The limit does not matter for what an operand means. -/
theorem Operand.meaning_maxDepth (env : Env ω σ) (d : Nat) :
    ∀ e : Operand, e.meaning { env with maxDepth := d } = e.meaning env
  | .literal _ _ => rfl
  | .reference target => by cases target <;> rfl
  | .sign _ body => by simp only [Operand.meaning, Operand.meaning_maxDepth env d body]
  | .group body => by simp only [Operand.meaning, Chain.meaning_maxDepth env d body]
  | .callOne _ x => by simp only [Operand.meaning, Chain.meaning_maxDepth env d x]
  | .callTwo _ x y => by
    simp only [Operand.meaning, Chain.meaning_maxDepth env d x, Chain.meaning_maxDepth env d y]
  | .empty => rfl

/-- The limit does not matter for what a chain means. -/
theorem Chain.meaning_maxDepth (env : Env ω σ) (d : Nat) :
    ∀ x : Chain, x.meaning { env with maxDepth := d } = x.meaning env
  | .mk first rest => by
    simp only [Chain.meaning, Operand.meaning_maxDepth env d first,
      Links.meaning_maxDepth env d rest]

/-- The limit does not matter for what links mean. -/
theorem Links.meaning_maxDepth (env : Env ω σ) (d : Nat) :
    ∀ (r : Links) (value : Float), r.meaning { env with maxDepth := d } value = r.meaning env value
  | .nil, _ => rfl
  | .cons _ right rest, _ => by
    simp only [Links.meaning, Operand.meaning_maxDepth env d right,
      Links.meaning_maxDepth env d rest]

end

/-- **The threshold of an expression is its nesting**, whichever of its texts is evaluated. -/
theorem hasThreshold_written (env : Env ω σ) (host : σ) {x : Chain} {text : String}
    (htext : Chain.Written x text.toList) (hwf : x.WellFormed false) :
    HasThreshold env text host x.nesting
      (.ok (x.meaning env host).1, .blank, (x.meaning env host).2) where
  ne_tooDeep := by simp
  below e d hd := eval_written_of_lt e { env with maxDepth := d } host htext hwf hd
  enough e d hd := by
    have hrun := (formula_written htext hwf { env with maxDepth := d } host).1 hd
    rw [Evaluator.evalWithin, Evaluator.eval_eq, hrun, Chain.meaning_maxDepth]

/-- **What is accepted is an expression that nests as deep as its threshold.** -/
theorem HasThreshold.exists_written {env : Env ω σ} {text : String} {host : σ} {n : Nat}
    {r : Except EvalError Float × Evaluator × σ} (h : HasThreshold env text host n r) {v : Float}
    (hv : r.1 = .ok v) :
    ∃ x : Chain, Chain.Written x text.toList ∧ x.WellFormed false ∧ x.nesting = n ∧
      r = (.ok (x.meaning env host).1, .blank, (x.meaning env host).2) := by
  have heval := h.enough .blank n (Nat.le_refl n)
  rw [Evaluator.evalWithin, Evaluator.eval_eq] at heval
  cases hrun : formula { env with maxDepth := n } (.facing 0 text.toList 0 host) with
  | error e s =>
    rw [hrun] at heval
    rw [← heval] at hv
    cases hv
  | ok y s =>
    obtain ⟨x, htext, hwf, -, -⟩ := formula_derived hrun
    obtain ⟨hn, hr⟩ := h.unique (hasThreshold_written env host htext hwf)
    exact ⟨x, htext, hwf, hn.symm, hr⟩

/-! ## Parentheses around a text -/

/-- **A text in so many pairs of parentheses.** -/
def parenthesized (n : Nat) (text : String) : String :=
  .ofList (List.replicate n '(' ++ text.toList ++ List.replicate n ')')

/-- No parentheses leave a text as it is. -/
lemma parenthesized_zero (text : String) : parenthesized 0 text = text := by
  simp [parenthesized]

/-- A further pair of parentheses stands around the others. -/
lemma toList_parenthesized_succ (n : Nat) (text : String) :
    (parenthesized (n + 1) text).toList = '(' :: (parenthesized n text).toList ++ [')'] := by
  simp only [parenthesized, String.toList_ofList, List.replicate_succ, List.cons_append]
  rw [← List.replicate_succ, List.replicate_succ']
  simp

/-- **A pair of parentheses raises the threshold of an accepted text by one**, and its value stays
the same. -/
lemma HasThreshold.parenthesized_succ {env : Env ω σ} {text : String} {host : σ} {n levels : Nat}
    {r : Except EvalError Float × Evaluator × σ}
    (h : HasThreshold env (parenthesized n text) host levels r) {v : Float} (hv : r.1 = .ok v) :
    HasThreshold env (parenthesized (n + 1) text) host (levels + 1) r := by
  obtain ⟨x, htext, hwf, rfl, rfl⟩ := h.exists_written hv
  have henclosed : Chain.Written (.mk (.group x) .nil) (parenthesized (n + 1) text).toList := by
    rw [toList_parenthesized_succ]
    exact htext.enclosed
  have hbody : x.WellFormed true := hwf.mono fun _ => rfl
  exact hasThreshold_written env host henclosed ⟨hbody, trivial⟩

/-- **The limit of nesting is a threshold and nothing else**: every text has one, no greater than
its length, and each pair of parentheses around an accepted text raises it by one and leaves the
value as it is. -/
theorem nesting_threshold (env : Env ω σ) (text : String) (host : σ) :
    (∃ levels ≤ text.length, ∃ result, HasThreshold env text host levels result) ∧
      ∀ levels result v, HasThreshold env text host levels result → result.1 = .ok v →
        ∀ n, HasThreshold env (parenthesized n text) host (levels + n) result := by
  refine ⟨exists_hasThreshold env text host, fun levels result v h hv n => ?_⟩
  induction n with
  | zero => rwa [parenthesized_zero]
  | succ n ih => exact ih.parenthesized_succ hv

/-- On a sign in two pairs of parentheses, which needs three levels. -/
theorem nesting_threshold_sign :
    (Evaluator.blank.evalWithin (.ofDocument .null 0) 2 "((-1))" 5).1 = .error (.tooDeep 2) ∧
      Evaluator.blank.evalWithin (.ofDocument .null 0) 3 "((-1))" 5 =
        (.ok (-(1 : UInt64).toFloat), .blank, 5) := by
  have htext : Chain.Written (.mk (.sign true (.literal ['1'] none)) .nil) "-1".toList :=
    .mk (.minus (.whole ['1'])) (.nil .nil) (by simp [MayTouch])
  have hwf : (Chain.mk (.sign true (.literal ['1'] none)) .nil).WellFormed false :=
    ⟨⟨by decide, by simp, by simp, by decide⟩, trivial⟩
  have hone : HasThreshold (.ofDocument .null 0) "-1" (5 : Generator) 1
      (.ok (-(1 : UInt64).toFloat), .blank, 5) :=
    hasThreshold_written (.ofDocument .null 0) 5 htext hwf
  have hthree := (nesting_threshold (.ofDocument .null 0) "-1" (5 : Generator)).2 1 _ _ hone rfl 2
  have hparens : parenthesized 2 "-1" = "((-1))" := by decide
  rw [hparens] at hthree
  exact ⟨hthree.below .blank 2 (by decide), hthree.enough .blank 3 (by decide)⟩

end Formula
