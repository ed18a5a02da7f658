import Formula.Proofs.Lockstep.Couplings
import Formula.Proofs.Pairing.Stretches

set_option relaxedAutoImplicit false
set_option autoImplicit false

/-!
# The first error

Evaluation stops at the first error that it meets and looks at most one character beyond the place
where it stops. So what follows that character does not matter: any other text with the same
beginning stops with the same error, and has made the same calls on the host by then.

## Main definitions

* `Formula.StopsAt` — evaluation of a text stops with an error at a position.
* `Formula.Env.recorded` — an evaluation whose calls on the host are recorded.

## Main results

* `Formula.StopsAt.of_env` — where evaluation stops does not depend on the data.
* `Formula.eval_error_of_agree` — text behind the first error does not matter.
-/

namespace Formula

open Scanner

variable {ω ω' σ σ' : Type}

/-- **Evaluation of a text stops with an error at a position**: so many characters lie before the
cursor then. -/
def StopsAt (env : Env ω σ) (text : String) (host : σ) (error : EvalError) (position : Nat) :
    Prop :=
  ∃ s, formula env (.facing 0 text.toList 0 host) = .error error s ∧ s.cursor.position = position

/-- **The same evaluation, every call on the host recorded.** -/
def Env.recorded (env : Env ω σ) : Env ω (Recorded σ) :=
  ⟨env.context, env.model.recorded, env.random.recorded, env.tick, env.maxDepth⟩

/-- **Evaluation gives an error if and only if it stops with it** somewhere. -/
theorem eval_eq_error_iff (e : Evaluator) (env : Env ω σ) (text : String) (host : σ)
    (error : EvalError) :
    (e.eval env text host).1 = .error error ↔ ∃ position, StopsAt env text host error position := by
  rw [Evaluator.eval_eq]
  unfold StopsAt
  cases formula env (.facing 0 text.toList 0 host) with
  | ok x s => simp
  | error e s => simp

namespace StopsAt

variable {env : Env ω σ} {text : String} {host : σ} {error : EvalError} {q : Nat}

/-- An error that tells a position tells the one where evaluation stops. -/
lemma position_eq {p : Nat} {v : Violation} (h : StopsAt env text host (.malformed p v) q) :
    p = q := by
  obtain ⟨s, hrun, rfl⟩ := h
  exact position_of_malformed hrun

/-- **Where evaluation stops does not depend on the data**, since two runs of one text are in
lockstep whatever their data are. -/
theorem of_env (h : StopsAt env text host error q) {env' : Env ω' σ'}
    (hlimit : env.maxDepth = env'.maxDepth) (host' : σ') : StopsAt env' text host' error q := by
  obtain ⟨s, hrun, rfl⟩ := h
  let C : Coupling σ σ' := .free σ σ' text.toList Eq
  have hC : C.Respects env env' := Coupling.free_respects (fun _ => rfl) env env'
  have hlock : C.Lockstep C.values (formula env) (formula env') :=
    .formula hC (.inl ⟨hlimit, congrArg EvalError.tooDeep hlimit⟩)
  have hout := hlock (.facing 0 text.toList 0 host) (.facing 0 text.toList 0 host')
    ⟨rfl, rfl, List.suffix_rfl, trivial⟩
  rw [hrun] at hout
  generalize hrun' : formula env' (.facing 0 text.toList 0 host') = r at hout
  cases hout with
  | error he ht =>
    obtain rfl : error = _ := he
    exact ⟨_, hrun', congrArg Cursor.position ht.cursor.symm⟩
  | escape he => exact he.elim

/-! ## Other text behind the error -/

/-- **The stretch in front of an error** and one character more, with what follows it in two texts
that agree on one character beyond that. -/
def stretch (q : Nat) (text text' : List Char) (h : text'.take (q + 2) = text.take (q + 2)) :
    Overlap where
  text := text.take (q + 1)
  start₁ := 0
  start₂ := 0
  rest₁ := text.drop (q + 1)
  rest₂ := text'.drop (q + 1)
  head := by
    have hget := congrArg (fun cs => cs[q + 1]?) h
    simp only [List.getElem?_take, Nat.lt_succ_self, if_true] at hget
    rw [List.head?_drop, List.head?_drop, hget]

/-- **Text behind the first error does not matter**, one character aside: the run of a text with the
same beginning stops with the same error and the same host.

**Proof sketch.** The two runs are paired along their common beginning, and the first one stops
where a character of it is still ahead. -/
lemma error_of_take_eq (h : StopsAt env text host error q) {text' : String}
    (hlength : q + 2 ≤ text.length)
    (htake : text'.toList.take (q + 2) = text.toList.take (q + 2)) :
    ∃ s s', formula env (.facing 0 text.toList 0 host) = .error error s ∧
      formula env (.facing 0 text'.toList 0 host) = .error error s' ∧ s'.host = s.host := by
  obtain ⟨s, hrun, rfl⟩ := h
  refine ⟨s, ?_⟩
  rw [← String.length_toList] at hlength
  generalize text.toList = cs at *
  generalize text'.toList = cs' at *
  let O : Overlap := stretch s.cursor.position cs cs' htake
  let P : Pairing σ := .along σ (· = O) (O.rest₁.length + 1) fun _ => False
  have hrest : O.rest₁.length = cs.length - (s.cursor.position + 1) := List.length_drop
  have hP : P.Respects env := by
    refine Pairing.along_respects ?_ ?_
    · rintro _ rfl
      exact .beyond (Nat.lt_succ_self _)
    · rintro _ rfl _ hmargin
      omega
  have htake' : cs'.take (s.cursor.position + 1) = cs.take (s.cursor.position + 1) := by
    have h := congrArg (List.take (s.cursor.position + 1)) htake
    simpa only [List.take_take, Nat.min_eq_left (Nat.le_succ (s.cursor.position + 1))] using h
  have hstart : P.joined (.facing 0 cs 0 host) (.facing 0 cs' 0 host) := by
    refine ⟨?_, O, rfl, ⟨[], O.text, rfl, ?_, ?_⟩, rfl, rfl⟩
    · show O.rest₁.length + 1 ≤ cs.length
      omega
    · show (⟨0, cs⟩ : Cursor) = ⟨0, cs.take _ ++ cs.drop _⟩
      rw [List.take_append_drop]
    · show (⟨0, cs'⟩ : Cursor) = ⟨0, cs.take _ ++ cs'.drop _⟩
      rw [← htake', List.take_append_drop]
  -- the first run stops with the last character of the stretch still ahead
  have hleft : O.rest₁.length + 1 ≤ s.cursor.rest.length := by
    have hreaches := ((forward_formula env).reaches (.facing 0 cs 0 host)).length
    rw [hrun] at hreaches
    have hlength' : s.cursor.position + s.cursor.rest.length = 0 + cs.length := hreaches
    omega
  have hout := hP.formula _ _ hstart
  rw [hrun] at hout
  generalize formula env (.facing 0 cs' 0 host) = r at hout ⊢
  cases hout with
  | astray hastray => exact absurd hleft (Nat.not_le_of_lt hastray)
  | error he hhost =>
    refine ⟨_, hrun, ?_, hhost.symm⟩
    cases he with
    | malformed hO _ _ =>
      subst hO
      rfl
    | other _ => rfl
  | refused_left he => exact he.elim
  | refused_right he => exact he.elim

/-- A text with the same beginning is evaluated to the same. -/
lemma eval_eq (h : StopsAt env text host error q) (e e' : Evaluator) {text' : String}
    (htake : text'.toList.take (q + 2) = text.toList.take (q + 2))
    (hshort : text.length < q + 2 → text' = text) :
    e'.eval env text' host = e.eval env text host := by
  by_cases hlength : q + 2 ≤ text.length
  · obtain ⟨s, s', hrun, hrun', hhost⟩ := h.error_of_take_eq hlength htake
    rw [Evaluator.eval_eq, Evaluator.eval_eq, hrun, hrun']
    dsimp only
    rw [hhost]
  · rw [hshort (Nat.lt_of_not_le hlength), Evaluator.eval_eq, Evaluator.eval_eq]

end StopsAt

/-- **Text behind the first error does not matter**: if evaluation of a text stops with an error at
a position, which is the one that the error tells if it tells one, then every text with the same
characters up to there and two more is evaluated to the same error, and leaves the host in the same
state, with the same calls in its record. -/
theorem eval_error_of_agree (env : Env ω σ) (host : σ) {text : String} {error : EvalError}
    {q : Nat} (hstop : StopsAt env text host error q) :
    (∀ p v, error = .malformed p v → p = q) ∧
      ∀ (e e' : Evaluator) (text' : String),
        text'.toList.take (q + 2) = text.toList.take (q + 2) →
        (text.length < q + 2 → text' = text) →
        (e.eval env text host).1 = .error error ∧
          e'.eval env text' host = e.eval env text host ∧
          ∀ calls, e'.eval env.recorded text' ⟨calls, host⟩ =
            e.eval env.recorded text ⟨calls, host⟩ := by
  constructor
  · rintro p v rfl
    exact hstop.position_eq
  · intro e e' text' htake hshort
    refine ⟨(eval_eq_error_iff e env text host error).mpr ⟨q, hstop⟩, ?_, fun calls => ?_⟩
    · exact hstop.eval_eq e e' htake hshort
    · have hlimit : env.maxDepth = env.recorded.maxDepth := rfl
      have hrecorded : StopsAt env.recorded text ⟨calls, host⟩ error q := hstop.of_env hlimit _
      exact hrecorded.eval_eq e e' htake hshort

/-- On a group with two references in it, where nothing behind the parenthesis matters. -/
theorem eval_error_of_agree_group :
    (Evaluator.blank.eval (.ofDocument .null 1) "($ $) * 2" 5).1 =
        .error (.malformed 3 (.notOperator '$')) ∧
      Evaluator.blank.eval (.ofDocument .null 1) "($ $)))" 5 =
        Evaluator.blank.eval (.ofDocument .null 1) "($ $) * 2" 5 := by
  have hstop : StopsAt (.ofDocument .null 1) "($ $) * 2" (5 : Generator)
      (.malformed 3 (.notOperator '$')) 3 := ⟨_, rfl, rfl⟩
  obtain ⟨herror, hsame, -⟩ := (eval_error_of_agree (.ofDocument .null 1) 5 hstop).2 .blank .blank
    "($ $)))" (by decide) (by decide)
  exact ⟨herror, hsame⟩

end Formula
