import Formula.Proofs.Draws

set_option relaxedAutoImplicit false
set_option autoImplicit false

/-!
# Positions of errors

An error in a text tells a position, and what it says is true of the text there: the character that
it names stands at the position, the text ends there if it says so, and the name, the type name or
the point that it speaks of ends just before. Reading moves forward only, so the text is what has
been read and what is ahead, and each violation is met where the two part.

An operand starts behind something that is no letter and no digit, so the name of a function is
never the end of a longer one.

## Main definitions

* `Formula.Violation.Fits` — a violation is true where a text parts in two.
* `Formula.Violation.TrueAt` — a violation is true at a position of a text.
* `Formula.Scanner.Truthful` — a run whose violation, if any, is true where it stops.

## Main results

* `Formula.Scanner.truthful_operand` — operands are truthful on all levels.
* `Formula.error_position_true` — every violation is true at its position.
-/

namespace Formula

open Scanner

variable {ω σ α β : Type}

/-! ## What violations say -/

/-- **The name of a function stands just before** something that is no parenthesis: a run of letters
and digits, which is part of no longer one, and blanks behind it. -/
structure NameBefore (before behind : List Char) (name : String) (front run w : List Char) :
    Prop where
  /-- The blanks come last. -/
  eq : before = front ++ run ++ w
  /-- The run is not empty. -/
  ne_nil : run ≠ []
  /-- It is made of letters and digits. -/
  isAlphanum : ∀ c ∈ run, c.isAlphanum = true
  /-- No letter or digit stands before it. -/
  maximal_left : ∀ c ∈ front.getLast?, c.isAlphanum = false
  /-- No letter or digit stands behind it. -/
  maximal_right : ∀ c ∈ (w ++ behind).head?, c.isAlphanum = false
  /-- The name is the run in lower case. -/
  lower : String.ofList (Text.lower run) = name
  /-- Nothing but blanks follows. -/
  blanks : Blanks w
  /-- No parenthesis follows them. -/
  ne_open : behind.head? ≠ some '('

/-- **A violation is true where a text parts** in what lies before and behind a place. -/
def Violation.Fits (before behind : List Char) : Violation → Prop
  | missingOperand => behind = []
  | missingClose => behind = []
  | openTypeName => behind = []
  | unmatchedClose => behind.head? = some ')'
  | unexpected c => behind.head? = some c
  | notOperator c => behind.head? = some c
  | notReference c => behind.head? = some c
  | secondPoint => behind.head? = some '.'
  | numberTooLarge => ∃ c ∈ behind.head?, c.isDigit = true
  | missingOpen name => ∃ front run w, NameBefore before behind name front run w
  | missingPath typeName =>
    (∃ front, before = front ++ ['$', '('] ++ typeName.toList ++ [')']) ∧ behind.head? ≠ some '.'
  | missingMember =>
    before.getLast? = some '.' ∧ ∀ c ∈ behind.head?, Text.isWordChar c = false

/-- **A violation is true at a position** of a text, which is one in the text or its end. -/
def Violation.TrueAt (text : List Char) (position : Nat) (v : Violation) : Prop :=
  position ≤ text.length ∧ v.Fits (text.take position) (text.drop position)

/-- **An operand may start**: no letter or digit stands before it. -/
def Fresh (before : List Char) : Prop :=
  ∀ c ∈ before.getLast?, c.isAlphanum = false

/-- At the start of a text an operand may start. -/
lemma Fresh.nil : Fresh [] := by
  rintro _ ⟨⟩

/-- An operand may start behind a character that is no letter or digit. -/
lemma Fresh.append_singleton (before : List Char) {c : Char} (hc : c.isAlphanum = false) :
    Fresh (before ++ [c]) := by
  intro x hx
  rw [List.getLast?_concat] at hx
  cases hx
  exact hc

/-- Blanks may stand before an operand. -/
lemma Fresh.append_blanks {before w : List Char} (h : Fresh before) (hw : Blanks w) :
    Fresh (before ++ w) := by
  intro c hc
  rw [List.getLast?_append] at hc
  cases hlast : w.getLast? with
  | none =>
    rw [hlast, Option.none_or] at hc
    exact h c hc
  | some b =>
    rw [hlast, Option.some_or] at hc
    obtain rfl : b = c := Option.some.inj hc
    by_contra hne
    have hblank := hw b (List.mem_of_getLast? hlast)
    rw [Text.isBlank_of_isAlphanum (by simpa using hne)] at hblank
    exact absurd hblank (by decide)

namespace Scanner

/-- **A truthful run**: if it stops with a violation, this is true where it stops, behind what lies
before and what the run has read. -/
def Truthful (before rest : List Char) (r : EStateM.Result EvalError (Running σ) α) : Prop :=
  ∀ p v t, r = .error (.malformed p v) t →
    ∃ read, rest = read ++ t.cursor.rest ∧ v.Fits (before ++ read) t.cursor.rest

namespace Truthful

variable {before rest : List Char}

/-- A value is truthful. -/
protected lemma ok (a : α) (s : Running σ) : Truthful before rest (.ok a s) := by
  intro p v t h
  cases h

/-- Other errors than violations are truthful. -/
protected lemma error {e : EvalError} (he : ∀ p v, e ≠ .malformed p v) (s : Running σ) :
    Truthful before rest (.error e s : EStateM.Result EvalError (Running σ) α) := by
  intro p v t h
  obtain ⟨rfl, -⟩ := EStateM.Result.error.inj h
  exact absurd rfl (he p v)

/-- A violation that is true on the spot is truthful. -/
protected lemma malformed {v : Violation} (h : v.Fits before rest) {s : Running σ}
    (hs : s.cursor.rest = rest) (p : Nat) :
    Truthful before rest
      (.error (.malformed p v) s : EStateM.Result EvalError (Running σ) α) := by
  intro q w t heq
  obtain ⟨heq, rfl⟩ := EStateM.Result.error.inj heq
  cases heq
  exact ⟨[], hs.symm, by rwa [List.append_nil, hs]⟩

/-- A scanner that stops with a violation that is true on the spot is truthful. -/
protected lemma fail {v : Violation} {s : Running σ} (h : v.Fits before s.cursor.rest) :
    Truthful before s.cursor.rest (fail v s : EStateM.Result EvalError (Running σ) α) :=
  .malformed h rfl _

/-- A run is truthful if what is left of it behind a part of the text is. -/
protected lemma behind {read rest' : List Char} {r : EStateM.Result EvalError (Running σ) α}
    (h : Truthful (before ++ read) rest' r) (hread : rest = read ++ rest') :
    Truthful before rest r := by
  intro p v t hrun
  obtain ⟨more, rfl, hfits⟩ := h p v t hrun
  exact ⟨read ++ more, by rw [hread, List.append_assoc], by rwa [← List.append_assoc]⟩

/-- A run is truthful in front of a character if what is left of it behind the character is. -/
protected lemma behind_cons {c : Char} {cs : List Char}
    {r : EStateM.Result EvalError (Running σ) α} (h : Truthful (before ++ [c]) cs r) :
    Truthful before (c :: cs) r :=
  h.behind rfl

/-- **A sequence is truthful** if its first part is, and its second part behind what the first one
has read. -/
protected lemma bind {m : Scanner σ α} {f : α → Scanner σ β} {s : Running σ}
    (hm : Truthful before rest (m s))
    (hf : ∀ a t, m s = .ok a t →
      ∃ read, rest = read ++ t.cursor.rest ∧ Truthful (before ++ read) t.cursor.rest (f a t)) :
    Truthful before rest ((m >>= f) s) := by
  rw [bind_apply]
  cases hrun : m s with
  | ok a t =>
    obtain ⟨read, hread, hbehind⟩ := hf a t hrun
    exact hbehind.behind hread
  | error e t =>
    intro p v u h
    cases h
    exact hm p v t hrun

/-- Computing with a value is truthful. -/
protected lemma map {m : Scanner σ α} {s : Running σ} (hm : Truthful before rest (m s))
    (f : α → β) : Truthful before rest ((m >>= fun a => pure (f a)) s) := by
  intro p v t h
  exact hm p v t (map_eq_error.mp h)

end Truthful

/-! ## Literals, operators and parentheses -/

/-- A literal is refused at a second point, or at a digit. -/
lemma fits_of_scanFrom {inFraction : Bool} {l : Literal} {p : Nat} {cs : List Char} {v : Violation}
    {stop : Cursor} (h : Literal.scanFrom inFraction l p cs = .refused v stop)
    (before : List Char) : v.Fits before stop.rest := by
  induction cs generalizing inFraction l p with
  | nil => cases h
  | cons c cs ih =>
    simp only [Literal.scanFrom] at h
    split_ifs at h with hpoint hfraction hdigit hfraction hfits
    · obtain ⟨rfl, rfl⟩ := Literal.Scan.refused.inj h
      exact congrArg some hpoint
    · exact ih h
    · exact ih h
    · exact ih h
    · obtain ⟨rfl, rfl⟩ := Literal.Scan.refused.inj h
      exact ⟨c, rfl, hdigit⟩

section

variable (before : List Char)

/-- Literals are truthful. -/
lemma truthful_number (s : Running σ) : Truthful before s.cursor.rest (number s) := by
  have hsuffix := Literal.stop_suffix s.cursor
  rw [number_apply]
  cases hscan : Literal.scan s.cursor with
  | done literal stop => exact .ok _ _
  | refused v stop =>
    rw [hscan] at hsuffix
    obtain ⟨read, hread⟩ := hsuffix
    have hfits : v.Fits (before ++ read) stop.rest := fits_of_scanFrom hscan _
    exact (Truthful.malformed hfits rfl stop.position).behind hread.symm

/-- Operators are truthful. -/
lemma truthful_operator (c : Char) (p : Nat) (cs : List Char) (d : Nat) (h : σ) :
    Truthful before (c :: cs) (operator c (.facing p (c :: cs) d h)) := by
  rw [operator_apply]
  have hfits : (Violation.notOperator c).Fits before (c :: cs) := rfl
  cases Operator.read? c (Cursor.next ⟨p, c :: cs⟩) with
  | none => exact .malformed hfits rfl p
  | some found => exact .ok _ _

/-- Closing parentheses are truthful. -/
lemma truthful_closeParen (p : Nat) (cs : List Char) (d : Nat) (h : σ) :
    Truthful before (')' :: cs) (closeParen (.facing p (')' :: cs) d h)) := by
  have hfits : Violation.unmatchedClose.Fits before (')' :: cs) := rfl
  rw [closeParen_apply]
  split_ifs
  · exact .malformed hfits rfl p
  · exact .ok _ _

/-- The end of a text is truthful. -/
lemma truthful_endOfText (scope : Scope) (r : Float) (p d : Nat) (h : σ) :
    Truthful before [] (endOfText scope r (.facing p [] d h)) := by
  have hfits : Violation.missingClose.Fits before [] := rfl
  rw [endOfText]
  split_ifs
  · exact .ok _ _
  · exact .malformed hfits rfl p

end

/-! ## References -/

/-- **A malformed path ends behind a point**, or where it starts, and in front of no character of a
name. -/
lemma rest_of_not_wellFormed {seen : List Char} {p : Nat} {cs : List Char}
    (h : (Path.scanFrom seen p cs).wellFormed = false) :
    ∃ read, cs = read ++ (Path.scanFrom seen p cs).stop.rest ∧
      (read.getLast? = some '.' ∨ read = [] ∧ seen = []) ∧
      ∀ c ∈ (Path.scanFrom seen p cs).stop.rest.head?, Text.isWordChar c = false := by
  have hclose (stop : Cursor) (hwf : (Path.scanFrom.close seen stop).wellFormed = false) :
      seen = [] := by
    cases seen with
    | nil => rfl
    | cons c seen => cases hwf
  induction cs generalizing seen p with
  | nil =>
    refine ⟨[], ?_, .inr ⟨rfl, hclose _ h⟩, ?_⟩ <;> simp [Path.scanFrom, Path.stop_close]
  | cons c cs ih =>
    simp only [Path.scanFrom] at h ⊢
    split_ifs at h ⊢ with hword hpoint
    · obtain ⟨read, hread, hlast, hhead⟩ := ih h fun stop hwf => by cases hwf
      obtain hlast | ⟨-, hseen⟩ := hlast
      · refine ⟨c :: read, congrArg (c :: ·) hread, .inl ?_, hhead⟩
        rw [List.getLast?_cons, hlast]
        rfl
      · cases hseen
    · obtain ⟨read, hread, hlast, hhead⟩ := ih h fun stop _ => rfl
      refine ⟨c :: read, congrArg (c :: ·) hread, .inl ?_, hhead⟩
      obtain hlast | ⟨rfl, -⟩ := hlast
      · rw [List.getLast?_cons, hlast]
        rfl
      · exact congrArg some hpoint.1
    · obtain rfl := hclose _ h
      refine ⟨[], ?_, .inr ⟨rfl, rfl⟩, ?_⟩
      · rw [Path.stop_close]
        rfl
      · rw [Path.stop_close]
        rintro _ ⟨⟩
        simpa using hword

/-- Following a path is truthful, wherever its scan has stopped. -/
lemma truthful_lookUp (env : Env ω σ) (target : Option ω) (names : List String) {wellFormed : Bool}
    {before : List Char} {s : Running σ}
    (h : wellFormed = false → Violation.missingMember.Fits before s.cursor.rest) :
    Truthful before s.cursor.rest (lookUp env target names wellFormed s) := by
  rw [lookUp, bind_of_ok (onHost_apply _ _)]
  generalize (env.model.follow target names s.host).1 = found
  cases wellFormed with
  | false =>
    simp only [Bool.false_eq_true, if_false]
    exact Truthful.fail (s := { s with host := _ }) (h rfl)
  | true =>
    cases found with
    | none => exact .ok _ _
    | some object => exact .ok _ _

/-- A path is truthful behind a point. -/
lemma truthful_memberPath (env : Env ω σ) (target : Option ω) {before : List Char}
    (hbefore : before.getLast? = some '.') (s : Running σ) :
    Truthful before s.cursor.rest (memberPath env target s) := by
  rw [memberPath_eq]
  cases hwf : (Path.scan s.cursor).wellFormed with
  | true =>
    obtain ⟨read, hread⟩ := Path.stop_suffix s.cursor
    exact (truthful_lookUp env target _ (s := { s with cursor := (Path.scan s.cursor).stop })
      (by rintro ⟨⟩)).behind hread.symm
  | false =>
    obtain ⟨read, hread, hlast, hhead⟩ := rest_of_not_wellFormed hwf
    have hfits : Violation.missingMember.Fits (before ++ read) (Path.scan s.cursor).stop.rest := by
      refine ⟨?_, hhead⟩
      obtain hlast | ⟨rfl, -⟩ := hlast
      · rw [List.getLast?_append, hlast]
        rfl
      · rwa [List.append_nil]
    exact (truthful_lookUp env target _ (s := { s with cursor := (Path.scan s.cursor).stop })
      fun _ => hfits).behind hread

/-- **The path of a component is truthful** behind a mark and a parenthesis.

**Proof sketch.** The type name ends in front of a closing parenthesis or with the text. Behind the
parenthesis it stands in full between the mark and the place where a point is missed, and a path
behind it starts with a point. -/
lemma truthful_componentPath (env : Env ω σ) (front : List Char) (p : Nat) (cs : List Char)
    (d : Nat) (h : σ) :
    Truthful (front ++ ['$', '(']) cs (componentPath env (.facing p cs d h)) := by
  obtain ⟨name, behind, rfl, hname, hbehind⟩ :=
    Text.exists_run (fun c => decide (c ≠ ')')) cs
  rw [componentPath_eq, bind_of_ok (takeRun_facing hname hbehind p d h)]
  refine Truthful.behind ?_ rfl
  cases behind with
  | nil =>
    have hfits : Violation.openTypeName.Fits (front ++ ['$', '('] ++ name) [] := rfl
    exact .malformed hfits rfl _
  | cons c behind =>
    obtain rfl : c = ')' := by simpa using hbehind c rfl
    refine Truthful.behind_cons ?_
    rw [registered, bind_of_ok (accept_cons _ _ _ _ _)]
    simp only [if_true]
    by_cases hpoint : behind.head? = some '.'
    · obtain ⟨path, rfl⟩ := List.head?_eq_some_iff.mp hpoint
      rw [bind_of_ok (accept_cons _ _ _ _ _)]
      refine Truthful.behind_cons ?_
      simp only [if_true]
      rw [bind_of_ok (onHost_apply _ _)]
      exact truthful_memberPath env _ (List.getLast?_concat) _
    · have hne : ∀ c ∈ behind.head?, c ≠ '.' := fun c hc heq => hpoint (heq ▸ hc)
      rw [bind_of_ok (accept_of_head hne _ _ _)]
      refine .fail ⟨⟨front, ?_⟩, hpoint⟩
      simp

/-- The name of a constant stops with no violation. -/
lemma truthful_namedConstant (env : Env ω σ) (before rest : List Char) (s : Running σ) :
    Truthful before rest (namedConstant env s) := by
  have haccept : ∃ b t, accept '-' s = .ok b t := by
    rw [accept_apply]
    split_ifs
    · exact ⟨_, _, rfl⟩
    · exact ⟨_, _, rfl⟩
  obtain ⟨b, t, haccept⟩ := haccept
  rw [namedConstant, bind_of_ok haccept]
  exact .ok _ _

/-- **References are truthful** behind their mark. -/
lemma truthful_reference (env : Env ω σ) (front : List Char) (p : Nat) (cs : List Char) (d : Nat)
    (h : σ) : Truthful (front ++ ['$']) cs (reference env (.facing p cs d h)) := by
  cases cs with
  | nil => exact .ok _ _
  | cons c cs =>
    rw [reference_cons]
    split_ifs with hminus hends hpoint hopen hword
    · exact truthful_namedConstant env _ _ _
    · exact .ok _ _
    · subst hpoint
      refine Truthful.behind_cons ?_
      exact truthful_memberPath env _ List.getLast?_concat (.facing (p + 1) cs d h)
    · subst hopen
      refine Truthful.behind_cons ?_
      rw [List.append_assoc]
      exact truthful_componentPath env front (p + 1) cs d h
    · exact truthful_namedConstant env _ _ _
    · have hfits : (Violation.notReference c).Fits (front ++ ['$']) (c :: cs) := rfl
      exact .malformed hfits rfl _

/-! ## Chains and calls -/

/-- **Truthful levels**: an operand is truthful wherever one may start. -/
def TruthfulOperands (env : Env ω σ) (levels : Nat) : Prop :=
  ∀ (before : List Char) (s : Running σ), Fresh before →
    Truthful before s.cursor.rest (operand env levels s)

/-- An operand may start behind an operator. -/
lemma fresh_of_spelling {op : Operator} {token : List Char} (h : token ∈ op.spellings)
    (before : List Char) : Fresh (before ++ token) := by
  have hlast : ∀ c ∈ token.getLast?, c.isAlphanum = false := by
    cases op <;> simp only [Operator.spellings, List.mem_cons, List.not_mem_nil, or_false] at h
    case eq => rcases h with rfl | rfl <;> (rintro _ ⟨⟩; decide)
    all_goals
      subst h
      rintro _ ⟨⟩
      decide
  intro c hc
  rw [List.getLast?_append] at hc
  cases ht : token.getLast? with
  | none =>
    obtain ⟨b, tail, rfl, -⟩ := Operator.head_of_mem_spellings h
    cases ht
  | some b =>
    rw [ht, Option.some_or] at hc
    exact hlast c (ht ▸ hc)

section

variable {env : Env ω σ} {levels : Nat} (hlevels : TruthfulOperands env levels)

include hlevels

/-- **Links are truthful** if their operands are.

**Proof sketch.** Induction on the length of the text ahead. Behind the blanks an operator is read,
behind which an operand may start, and the links behind that have less text ahead. -/
lemma truthful_links (scope : Scope) (r : Float) (before : List Char) (s : Running σ) :
    Truthful before s.cursor.rest (links env levels scope r s) := by
  induction hn : s.cursor.rest.length using Nat.strongRecOn generalizing before s r with
  | ind n ih =>
    subst hn
    obtain ⟨p, w, cs, -, hrest, hhead, hsettle⟩ := s.exists_settle
    rw [← links_settle, hsettle]
    refine Truthful.behind ?_ hrest
    cases cs with
    | nil =>
      rw [links_nil]
      exact truthful_endOfText _ _ _ _ _ _
    | cons c cs =>
      by_cases hclose : c = ')'
      · subst hclose
        rw [links_close]
        exact (truthful_closeParen _ _ _ _ _).map fun _ => (r, Ending.close)
      · by_cases hcomma : c = ',' ∧ scope = .argument
        · obtain ⟨rfl, rfl⟩ := hcomma
          rw [links_comma]
          exact .ok _ _
        · rw [links_operator env levels scope (hhead c rfl) hclose hcomma]
          have hlength := congrArg List.length hrest
          simp only [List.length_append, List.length_cons] at hlength
          refine (truthful_operator _ c p cs _ _).bind fun op t hop => ?_
          obtain ⟨token, hmem, htoken, -, -⟩ := spelling_of_operator hop
          have hop' := length_rest_of_operator hop
          refine ⟨token, htoken, ?_⟩
          refine (hlevels _ t (fresh_of_spelling hmem _)).bind fun x u hx => ?_
          obtain ⟨read, hread⟩ := operand_suffix env levels hx
          have hx' := (operand_suffix env levels hx).length_le
          exact ⟨read, hread.symm, ih _ (by omega) _ _ _ rfl⟩

/-- Chains are truthful where an operand may start. -/
lemma truthful_chain (scope : Scope) {before : List Char} (hbefore : Fresh before)
    (s : Running σ) : Truthful before s.cursor.rest (chain (operand env levels) scope s) := by
  rw [chain_eq]
  refine (hlevels before s hbefore).bind fun x t hx => ?_
  obtain ⟨read, hread⟩ := operand_suffix env levels hx
  exact ⟨read, hread.symm, truthful_links hlevels scope x _ t⟩

/-- Arguments are truthful where an operand may start. -/
lemma truthful_argument {before : List Char} (hbefore : Fresh before) (s : Running σ) :
    Truthful before s.cursor.rest (argument (operand env levels) s) :=
  (truthful_chain hlevels .argument hbefore s).map fun r => (r.1, r.2 == .close)

/-- **The arguments of a call are truthful**: the second one starts behind a comma. -/
lemma truthful_arguments (f : Builtin) {before : List Char} (hbefore : Fresh before)
    (s : Running σ) : Truthful before s.cursor.rest (arguments f (operand env levels) s) := by
  rw [arguments_eq]
  refine (truthful_argument hlevels hbefore s).bind fun a t ha => ?_
  obtain ⟨x, last⟩ := a
  obtain ⟨c, u, hc⟩ := Chain.derived_argument (sound levels) ha
  have hcount (before rest : List Char) (t : Running σ) :
      Truthful before rest ((throw (.argumentCount f) : Scanner σ Arguments) t) :=
    .error (fun _ _ h => by cases h) t
  refine ⟨_, hc.rest.trans (List.append_assoc _ _ _).symm, ?_⟩
  unfold furtherArguments
  cases htake : f.take none x last with
  | complete args => exact .ok args t
  | wrong => exact hcount _ _ t
  | more =>
    obtain rfl : last = false := Builtin.last_of_more htake
    have hfresh : Fresh (before ++ (u ++ [','])) := by
      rw [← List.append_assoc]
      exact .append_singleton _ (by decide)
    refine (truthful_argument hlevels hfresh t).bind fun b t' hb => ?_
    obtain ⟨c', u', hc'⟩ := Chain.derived_argument (sound levels) hb
    refine ⟨_, hc'.rest.trans (List.append_assoc _ _ _).symm, ?_⟩
    cases b.2 with
    | false => exact hcount _ _ t'
    | true => exact .ok _ _

end

section

variable {env : Env ω σ} {levels : Nat}
  (hbelow : ∀ l, levels = l + 1 → TruthfulOperands env l)

include hbelow

/-- What is nested is truthful if it is so on the level below. -/
lemma truthful_nested {body : Scanner σ Float → Scanner σ α} {before rest : List Char}
    {s : Running σ}
    (hbody : ∀ l, TruthfulOperands env l → Truthful before rest (body (operand env l) s)) :
    Truthful before rest (nested env (level env levels) body s) := by
  cases levels with
  | zero => exact .error (fun _ _ h => by cases h) s
  | succ l => exact hbody l (hbelow l rfl)

/-- Reading the arguments of a function and calling it is truthful. -/
lemma truthful_applied (f : Builtin) {before : List Char} (hbefore : Fresh before)
    (s : Running σ) :
    Truthful before s.cursor.rest (applied env (level env levels) f s) := by
  refine (truthful_nested hbelow fun l hl => truthful_arguments hl f hbefore s).bind
    fun args t hargs => ?_
  obtain ⟨l, -, hargs⟩ := (nested_eq_ok env levels).mp hargs
  obtain ⟨read, hread⟩ : t.cursor.rest <:+ s.cursor.rest := by
    have hforward := ((forward_operand env l).arguments f).reaches s
    rw [hargs] at hforward
    exact hforward.rest
  refine ⟨read, hread.symm, ?_⟩
  rw [invoke, bind_of_ok (onHost_apply _ _)]
  cases (f.call env.random args t.host).1 with
  | none => exact .error (fun _ _ h => by cases h) _
  | some x => exact .ok _ _

/-- **A call is truthful** where an operand may start: its name stands in full before the place
where a parenthesis is missed.

**Proof sketch.** The name is the whole run of letters and digits, since an operand may start before
it, and the blanks behind it are moved over. -/
lemma truthful_call {before : List Char} (hbefore : Fresh before) {c : Char}
    (hc : c.isAlpha = true) (p : Nat) (cs : List Char) (d : Nat) (h : σ) :
    Truthful before (c :: cs) (call env (level env levels) (.facing p (c :: cs) d h)) := by
  obtain ⟨name, rest, hsplit, hname, hrest⟩ := Text.exists_run Char.isAlphanum (c :: cs)
  obtain ⟨q, w, behind, hw, hbehind, -, hsettle⟩ :=
    (Running.facing (p + name.length) rest d h).exists_settle
  obtain rfl : rest = w ++ behind := hbehind
  have hne : name ≠ [] := by
    rintro rfl
    rw [List.nil_append] at hsplit
    have hstop := hrest c (hsplit ▸ rfl)
    rw [Char.isAlphanum, hc] at hstop
    cases hstop
  have hcall : call env (level env levels) (.facing p (c :: cs) d h) =
      called env (level env levels) name (.facing q behind d h) := by
    have hskip : (skipBlanks : Scanner σ Unit) (.facing (p + name.length) (w ++ behind) d h) =
        .ok () (.facing q behind d h) := congrArg (EStateM.Result.ok ()) hsettle
    rw [call_eq, hsplit, bind_of_ok (takeRun_facing hname hrest _ _ _)]
    exact bind_of_ok hskip _
  rw [hcall, hsplit, ← List.append_assoc]
  refine Truthful.behind ?_ rfl
  by_cases hopen : behind.head? = some '('
  · obtain ⟨cs', rfl⟩ := List.head?_eq_some_iff.mp hopen
    refine Truthful.behind_cons ?_
    rw [called, bind_of_ok (accept_cons _ _ _ _ _)]
    simp only [if_true]
    cases Builtin.named? (String.ofList (Text.lower name)) with
    | none => exact .error (fun _ _ h => by cases h) _
    | some f =>
      have hfresh : Fresh (before ++ (name ++ w) ++ ['(']) := .append_singleton _ (by decide)
      exact truthful_applied hbelow f hfresh (.facing (q + 1) cs' (d + 1) h)
  · have hother : ∀ c ∈ behind.head?, c ≠ '(' := fun c hc heq => hopen (heq ▸ hc)
    rw [called, bind_of_ok (accept_of_head hother _ _ _)]
    refine Truthful.fail (s := .facing q behind d h) ⟨before, name, w, ?_⟩
    exact ⟨(List.append_assoc _ _ _).symm, hne, hname, hbefore, hrest, rfl, hw, hopen⟩

end

/-! ## Operands -/

/-- **A level is truthful** if the level below is. -/
lemma truthful_step {env : Env ω σ} {levels : Nat}
    (hbelow : ∀ l, levels = l + 1 → TruthfulOperands env l) : TruthfulOperands env levels := by
  intro before s hbefore
  obtain ⟨p, w, cs, hw, hrest, hhead, hsettle⟩ := s.exists_settle
  rw [← operand_settle, hsettle]
  refine Truthful.behind ?_ hrest
  have hfresh : Fresh (before ++ w) := hbefore.append_blanks hw
  cases cs with
  | nil =>
    have hfits : Violation.missingOperand.Fits (before ++ w) [] := rfl
    rw [operand_eq, operandWith_nil]
    exact .malformed hfits rfl _
  | cons c cs =>
    by_cases hdigit : c.isDigit = true
    · rw [operand_digit env _ _ _ _ _ hdigit]
      exact truthful_number _ _
    by_cases halpha : c.isAlpha = true
    · rw [operand_alpha env _ _ _ _ _ halpha]
      exact truthful_call hbelow hfresh halpha _ _ _ _
    by_cases hother : c ∈ ['$', '(', '+', '-', ')']
    · simp only [List.mem_cons, List.not_mem_nil, or_false] at hother
      rcases hother with rfl | rfl | rfl | rfl | rfl
      · rw [operand_mark]
        exact (truthful_reference env _ _ _ _ _).behind_cons
      · rw [operand_open]
        refine Truthful.behind_cons ?_
        refine (truthful_nested hbelow fun l hl => ?_).map Prod.fst
        exact truthful_chain hl .group (.append_singleton _ (by decide)) _
      · rw [operand_plus]
        refine Truthful.behind_cons ?_
        exact truthful_nested hbelow fun l hl => hl _ _ (.append_singleton _ (by decide))
      · rw [operand_minus]
        refine Truthful.behind_cons ?_
        refine (truthful_nested hbelow fun l hl => ?_).map fun x => -x
        exact hl _ _ (.append_singleton _ (by decide))
      · rw [operand_close]
        exact .ok _ _
    · rw [operand_other env _ _ _ _ _ (hhead c rfl) (by simpa using hdigit)
        (by simpa using halpha) hother]
      have hfits : (Violation.unexpected c).Fits (before ++ w) (c :: cs) := rfl
      exact .malformed hfits rfl _

/-- **Operands are truthful** on all levels. -/
lemma truthful_operand (env : Env ω σ) (levels : Nat) : TruthfulOperands env levels := by
  induction levels with
  | zero => exact truthful_step fun l hl => absurd hl.symm (Nat.succ_ne_zero l)
  | succ l ih => exact truthful_step fun k hk => Nat.succ.inj hk ▸ ih

end Scanner

/-! ## Whole texts -/

/-- **Every violation is true at its position**: whatever evaluation of a text says to be wrong at a
position, this is one in the text or its end, and the text is as the violation says there.

**Proof sketch.** The whole text is a chain, and an operand may start where nothing stands before
it. The violation is true behind what has been read when evaluation stops, and this is as long as the
position tells, since evaluation moves forward only and stops where it says. -/
theorem error_position_true (e : Evaluator) (env : Env ω σ) (text : String) (host : σ) {p : Nat}
    {v : Violation} (herror : (e.eval env text host).1 = .error (.malformed p v)) :
    v.TrueAt text.toList p := by
  rw [Evaluator.eval_eq] at herror
  cases hrun : formula env (.facing 0 text.toList 0 host) with
  | ok x s =>
    rw [hrun] at herror
    cases herror
  | error error s =>
    rw [hrun] at herror
    cases herror
    have htruthful : Truthful [] text.toList (formula env (.facing 0 text.toList 0 host)) :=
      (truthful_chain (truthful_operand env env.maxDepth) .whole .nil
        (.facing 0 text.toList 0 host)).map Prod.fst
    obtain ⟨read, hread, hfits⟩ := htruthful p v s hrun
    have hreaches : (Cursor.start text.toList).Reaches s.cursor := by
      have h := (forward_formula env).reaches (.facing 0 text.toList 0 host)
      rwa [hrun] at h
    have hposition : p = read.length := by
      rw [position_of_malformed hrun, hreaches.position_eq hread]
      exact Nat.zero_add _
    rw [Violation.TrueAt, hposition, hread, List.take_left, List.drop_left]
    refine ⟨?_, hfits⟩
    rw [List.length_append]
    exact Nat.le_add_right _ _

/-- On a name with a blank and no parenthesis behind it. -/
theorem error_position_true_name :
    Violation.TrueAt "Sin x".toList 4 (.missingOpen "sin") :=
  error_position_true .blank (.ofDocument .null 0) "Sin x" 5 rfl

end Formula
