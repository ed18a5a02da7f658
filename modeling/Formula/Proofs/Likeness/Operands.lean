import Formula.Proofs.Likeness

set_option relaxedAutoImplicit false
set_option autoImplicit false

/-!
# Operands and chains of texts that are read alike

What holds of the parts that read characters holds of operands, chains and calls: in texts that are
read alike they give the same values and make the same calls on the host, or stop with errors that
go together. The two texts may differ in length, so links are compared in as many rounds as the
longer of them needs.

## Main definitions

* `Formula.Likeness.Verdicts` — verdicts on two texts that go together.

## Main results

* `Formula.Likeness.operand_alike` — operands come to the same.
* `Formula.Likeness.formula_alike` — so do whole texts.
* `Formula.Likeness.eval_alike` — so do evaluations, and their positions go together.
-/

namespace Formula

open Scanner

variable {ω σ α : Type} {L : Likeness} {env : Env ω σ}

namespace Likeness

/-! ## What lies ahead -/

/-- **What lies behind the blanks ahead** of states that go together: in both the end of the text,
the same character, or letters that count as the same. -/
inductive Settled (L : Likeness) (d : Nat) (h : σ) : Running σ → Running σ → Prop
  | text (p₁ p₂ : Nat) : L.ahead [] [] → Settled L d h (.facing p₁ [] d h) (.facing p₂ [] d h)
  | same {c : Char} {u₁ u₂ : List Char} (p₁ p₂ : Nat) :
      Text.isBlank c = false → L.ahead (c :: u₁) (c :: u₂) → L.ahead u₁ u₂ →
      Settled L d h (.facing p₁ (c :: u₁) d h) (.facing p₂ (c :: u₂) d h)
  | letters {c₁ c₂ : Char} {u₁ u₂ : List Char} (p₁ p₂ : Nat) : c₁.isAlpha = true →
      c₂.isAlpha = true → L.chars c₁ c₂ → L.ahead (c₁ :: u₁) (c₂ :: u₂) →
      Settled L d h (.facing p₁ (c₁ :: u₁) d h) (.facing p₂ (c₂ :: u₂) d h)

/-- One of the three lies behind the blanks ahead. -/
lemma Joined.settled {s₁ s₂ : Running σ} (hs : L.Joined s₁ s₂) :
    L.Settled s₁.depth s₁.host s₁.settle s₂.settle := by
  have hahead : L.ahead s₁.settle.cursor.rest s₂.settle.cursor.rest := L.settle hs.ahead
  have hd : s₁.depth = s₂.settle.depth := hs.depth
  have hh : s₁.host = s₂.settle.host := hs.host
  have hhead₁ := s₁.head_settle
  have hhead₂ := s₂.head_settle
  have hempty {t : List Char} (hg : Gap t) (hhead : ∀ c ∈ t.head?, Text.isBlank c = false) :
      t = [] := by
    cases t with
    | nil => rfl
    | cons c u => exact absurd (hg c rfl) (by simp [hhead c rfl])
  obtain ⟨p₁, t₁, ht₁⟩ : ∃ p₁ t₁, s₁.settle = .facing p₁ t₁ s₁.depth s₁.host := ⟨_, _, rfl⟩
  generalize s₁.depth = d at *
  generalize s₁.host = h at *
  generalize s₁.settle = u₁ at *
  generalize s₂.settle = u₂ at *
  subst ht₁
  obtain ⟨⟨⟨p₂, t₂⟩, d₂⟩, h₂⟩ := u₂
  obtain rfl : d = d₂ := hd
  obtain rfl : h = h₂ := hh
  cases L.seen hahead with
  | gap hg₁ hg₂ =>
    obtain rfl : t₁ = [] := hempty hg₁ hhead₁
    obtain rfl : t₂ = [] := hempty hg₂ hhead₂
    exact .text p₁ p₂ hahead
  | same hblank _ hbehind => exact .same p₁ p₂ hblank hahead hbehind
  | letters h₁ h₂ hchars _ => exact .letters p₁ p₂ h₁ h₂ hchars hahead

namespace Alike

/-! ## Chains -/

/-- The end of the text ends a chain in both runs or in neither. -/
protected lemma endOfText (scope : Scope) (r : Float) :
    L.Alike (· = ·) (endOfText scope r : Scanner σ (Float × Ending)) (endOfText scope r) := by
  unfold Scanner.endOfText
  split_ifs
  · exact .pure _
  · exact .fail _

/-- A parenthesis is closed in both runs or unmatched in both. -/
lemma closeParen {c : Char} {u₁ u₂ : List Char} (hhere : L.ahead (c :: u₁) (c :: u₂))
    (hnext : L.ahead u₁ u₂) (p₁ p₂ d : Nat) (h : σ) :
    L.Outcome (· = ·) (closeParen (.facing p₁ (c :: u₁) d h))
      (Scanner.closeParen (.facing p₂ (c :: u₂) d h)) := by
  rw [closeParen_apply, closeParen_apply]
  split_ifs
  · exact .error (.malformed (.refl _)) ⟨hhere, rfl, rfl⟩
  · exact .ok rfl ⟨hnext, rfl, rfl⟩

/-- **The rest of a chain comes to the same** in equally many rounds, if its operands do.

**Proof sketch.** Induction on the rounds. Behind the blanks both texts end, or go on with the same
character, which ends the chain or starts the same operator, or go on with letters, where no
operator is found. -/
protected lemma chainRest {one : Scanner σ Float} (hone : L.Alike (· = ·) one one) (scope : Scope)
    (rounds : Nat) (r : Float) :
    L.Alike (· = ·) (chainRest one scope rounds r) (chainRest one scope rounds r) := by
  induction rounds generalizing r with
  | zero => exact .endOfText scope r
  | succ rounds ih =>
    have hlink (op : Operator) : L.Alike (· = ·)
        (one >>= fun right => Scanner.chainRest one scope rounds (op.apply r right))
        (one >>= fun right => Scanner.chainRest one scope rounds (op.apply r right)) :=
      hone.andThen fun right => ih _
    intro s₁ s₂ hs
    rw [← chainRest_settle one scope rounds r s₁, ← chainRest_settle one scope rounds r s₂]
    have hsettled := hs.settled
    generalize s₁.settle = t₁ at hsettled ⊢
    generalize s₂.settle = t₂ at hsettled ⊢
    cases hsettled with
    | text p₁ p₂ hahead =>
      rw [chainRest_nil, chainRest_nil]
      exact Alike.endOfText scope r _ _ ⟨hahead, rfl, rfl⟩
    | @same c u₁ u₂ p₁ p₂ hblank hhere hnext =>
      rw [chainRest_cons one hblank, chainRest_cons one hblank]
      split_ifs
      · exact (closeParen hhere hnext p₁ p₂ _ _).map fun _ _ _ => rfl
      · exact .ok rfl ⟨hnext, rfl, rfl⟩
      · refine (operator_same hhere hnext).bind ?_
        rintro op _ rfl
        exact hlink op
    | @letters c₁ c₂ u₁ u₂ p₁ p₂ h₁ h₂ hchars hahead =>
      have hblank {c : Char} (hc : c.isAlpha = true) : Text.isBlank c = false :=
        Text.isBlank_of_isAlphanum (Text.isAlphanum_of_isAlpha hc)
      have hclose {c : Char} (hc : c.isAlpha = true) : c ≠ ')' :=
        Text.ne_of_isAlpha hc (by decide)
      have hcomma {c : Char} (hc : c.isAlpha = true) : ¬ (c = ',' ∧ scope = .argument) :=
        fun h => Text.ne_of_isAlpha hc (by decide) h.1
      rw [chainRest_cons one (hblank h₁), chainRest_cons one (hblank h₂), if_neg (hclose h₁),
        if_neg (hclose h₂), if_neg (hcomma h₁), if_neg (hcomma h₂)]
      have ht : L.Joined (.facing p₁ (c₁ :: u₁) s₁.depth s₁.host)
          (.facing p₂ (c₂ :: u₂) s₁.depth s₁.host) := ⟨hahead, rfl, rfl⟩
      refine (operator_letters h₁ h₂ hchars ht).bind ?_
      rintro op _ rfl
      exact hlink op

variable {levels : Nat}

/-- **Links come to the same if operands do**, also where the texts ahead differ in length. -/
protected lemma links (hone : L.Alike (· = ·) (operand env levels) (operand env levels))
    (scope : Scope) (r : Float) :
    L.Alike (· = ·) (links env levels scope r) (links env levels scope r) := by
  intro s₁ s₂ hs
  rw [← chainRest_eq_links env levels scope r s₁ (Nat.le_max_left _ s₂.cursor.rest.length),
    ← chainRest_eq_links env levels scope r s₂ (Nat.le_max_right s₁.cursor.rest.length _)]
  exact hone.chainRest scope _ r s₁ s₂ hs

/-- Chains come to the same if operands do. -/
protected lemma chain (hone : L.Alike (· = ·) (operand env levels) (operand env levels))
    (scope : Scope) :
    L.Alike (· = ·) (chain (operand env levels) scope) (chain (operand env levels) scope) := by
  rw [chain_eq]
  exact hone.andThen fun first => hone.links scope first

/-! ## Calls -/

/-- Arguments come to the same if operands do. -/
protected lemma argument (hone : L.Alike (· = ·) (operand env levels) (operand env levels)) :
    L.Alike (· = ·) (argument (operand env levels)) (argument (operand env levels)) :=
  (hone.chain .argument).andThen fun _ => .pure _

/-- A wrong number of arguments stops both runs. -/
protected lemma argumentCount {R : α → α → Prop} (f : Builtin) :
    L.Alike R (throw (.argumentCount f) : Scanner σ α) (throw (.argumentCount f)) :=
  .throw fun _ _ h => by cases h

/-- **The arguments of a call come to the same** if operands do. -/
protected lemma arguments (hone : L.Alike (· = ·) (operand env levels) (operand env levels))
    (f : Builtin) :
    L.Alike (· = ·) (arguments f (operand env levels)) (arguments f (operand env levels)) := by
  rw [arguments_eq]
  refine hone.argument.andThen fun r => ?_
  unfold furtherArguments
  cases f.take none r.1 r.2 with
  | complete args => exact .pure args
  | wrong => exact .argumentCount f
  | more =>
    refine hone.argument.andThen fun r => ?_
    split
    · exact .pure _
    · exact .argumentCount f

/-- Calling a function comes to the same. -/
protected lemma invoke (env : Env ω σ) (f : Builtin) (args : Arguments) :
    L.Alike (· = ·) (invoke env f args) (invoke env f args) := by
  refine .andThen (.onHost _) fun result => ?_
  cases result
  · exact .argumentCount f
  · exact .pure _

section

variable (hbelow : ∀ l, levels = l + 1 → L.Alike (· = ·) (operand env l) (operand env l))

include hbelow

/-- **Going a level deeper comes to the same** if what is read there does. -/
protected lemma nested {body : Scanner σ Float → Scanner σ α}
    (hbody : ∀ l, L.Alike (· = ·) (operand env l) (operand env l) →
      L.Alike (· = ·) (body (operand env l)) (body (operand env l))) :
    L.Alike (· = ·) (nested env (level env levels) body) (nested env (level env levels) body) := by
  cases levels with
  | zero => exact .throw fun _ _ h => by cases h
  | succ l => exact hbody l (hbelow l rfl)

/-- A call comes to the same behind its name. -/
protected lemma called (name : List Char) :
    L.Alike (· = ·) (called env (level env levels) name) (called env (level env levels) name) := by
  have hopen : L.Alike (· = ·) (openParen : Scanner σ Unit) openParen :=
    fun _ _ hs => .ok rfl ⟨hs.ahead, congrArg (· + 1) hs.depth, hs.host⟩
  refine .andThen (.accept (by decide) (by decide)) fun opened => ?_
  split
  · refine hopen.andThen fun _ => ?_
    split
    · exact .throw fun _ _ h => by cases h
    · rename_i f _
      exact .andThen (.nested hbelow fun _ hone => hone.arguments f) fun args => .invoke env f args
  · exact .fail _

/-- **Calls come to the same**: only the lower case of the name matters. -/
protected lemma call :
    L.Alike (· = ·) (call env (level env levels)) (call env (level env levels)) := by
  rw [call_eq]
  refine .bind (.takeRun ?_ ?_) ?_
  · intro c hc
    by_contra h
    rw [Text.isBlank_of_isAlphanum (Bool.not_eq_false _ ▸ h)] at hc
    exact absurd hc (by simp)
  · exact fun c hc => Text.isAlphanum_of_isAlpha hc
  · intro name₁ name₂ hnames
    have hcalled : called env (level env levels) name₁ = called env (level env levels) name₂ := by
      unfold Scanner.called
      rw [L.lower_eq hnames]
    rw [hcalled]
    exact .andThen .skipBlanks fun _ => .called hbelow name₂

end

end Alike

/-! ## Operands -/

variable {good : ω → Prop} (hfinds : L.Finds env good)

include hfinds

/-- **Operands come to the same** if those of the level below do.

**Proof sketch.** Behind the blanks both texts end, or go on with the same character, which decides
what is read, or go on with letters, which start a call. -/
lemma operand_alike_step {levels : Nat}
    (hbelow : ∀ l, levels = l + 1 → L.Alike (· = ·) (operand env l) (operand env l)) :
    L.Alike (· = ·) (operand env levels) (operand env levels) := by
  intro s₁ s₂ hs
  rw [← operand_settle env levels s₁, ← operand_settle env levels s₂]
  have hsettled := hs.settled
  generalize s₁.depth = d at hsettled
  generalize s₁.host = h at hsettled
  generalize s₁.settle = t₁ at hsettled ⊢
  generalize s₂.settle = t₂ at hsettled ⊢
  cases hsettled with
  | text p₁ p₂ hahead =>
    rw [operand_eq, operandWith_nil, operandWith_nil]
    exact .error (.malformed (.refl _)) ⟨hahead, rfl, rfl⟩
  | letters p₁ p₂ h₁ h₂ hchars hahead =>
    rw [operand_alpha env _ _ _ _ _ h₁, operand_alpha env _ _ _ _ _ h₂]
    exact Alike.call hbelow _ _ ⟨hahead, rfl, rfl⟩
  | @same c u₁ u₂ p₁ p₂ hblank hhere hnext =>
    have hs : L.Joined (.facing p₁ (c :: u₁) d h) (.facing p₂ (c :: u₂) d h) := ⟨hhere, rfl, rfl⟩
    have hbehind : L.Joined (.facing (p₁ + 1) u₁ d h) (.facing (p₂ + 1) u₂ d h) :=
      ⟨hnext, rfl, rfl⟩
    have hsign : L.Alike (· = ·) (nested env (level env levels) id)
        (nested env (level env levels) id) := .nested hbelow fun _ hone => hone
    by_cases hdigit : c.isDigit = true
    · rw [operand_digit env _ _ _ _ _ hdigit, operand_digit env _ _ _ _ _ hdigit]
      exact Alike.number _ _ hs
    by_cases halpha : c.isAlpha = true
    · rw [operand_alpha env _ _ _ _ _ halpha, operand_alpha env _ _ _ _ _ halpha]
      exact Alike.call hbelow _ _ hs
    by_cases hother : c ∈ ['$', '(', '+', '-', ')']
    · simp only [List.mem_cons, List.not_mem_nil, or_false] at hother
      rcases hother with rfl | rfl | rfl | rfl | rfl
      · rw [operand_mark, operand_mark]
        exact reference_alike hfinds hbehind (L.mark hhere)
      · rw [operand_open, operand_open]
        have hgroup : L.Alike (· = ·)
            (nested env (level env levels) fun one => Scanner.chain one .group)
            (nested env (level env levels) fun one => Scanner.chain one .group) :=
          .nested hbelow fun _ hone => hone.chain .group
        exact (hgroup (.facing (p₁ + 1) u₁ (d + 1) h) (.facing (p₂ + 1) u₂ (d + 1) h)
          ⟨hnext, rfl, rfl⟩).map fun _ _ => congrArg Prod.fst
      · rw [operand_plus, operand_plus]
        exact hsign _ _ hbehind
      · rw [operand_minus, operand_minus]
        exact (hsign _ _ hbehind).map fun _ _ => congrArg (- ·)
      · rw [operand_close, operand_close]
        exact .ok rfl hs
    · rw [operand_other env levels p₁ u₁ d h hblank (by simpa using hdigit) (by simpa using halpha)
          hother,
        operand_other env levels p₂ u₂ d h hblank (by simpa using hdigit) (by simpa using halpha)
          hother]
      exact .error (.malformed (.refl _)) hs

/-- **Operands come to the same** in texts that are read alike, on every level. -/
theorem operand_alike (levels : Nat) :
    L.Alike (· = ·) (operand env levels) (operand env levels) := by
  induction levels with
  | zero => exact operand_alike_step hfinds fun l hl => absurd hl.symm (Nat.succ_ne_zero l)
  | succ l ih => exact operand_alike_step hfinds fun k hk => Nat.succ.inj hk ▸ ih

/-- **Whole texts that are read alike come to the same.** -/
theorem formula_alike : L.Alike (· = ·) (formula env) (formula env) :=
  ((operand_alike hfinds env.maxDepth).chain .whole).andThen fun _ => .pure _

omit hfinds

/-! ## Evaluations -/

/-- The blanks before a formula do not matter. -/
lemma formula_settle (env : Env ω σ) (s : Running σ) : formula env s.settle = formula env s := by
  have hchain : chain (operand env env.maxDepth) .whole s.settle =
      chain (operand env env.maxDepth) .whole s := by
    rw [chain_eq, bind_apply, bind_apply, operand_settle]
  show (chain (operand env env.maxDepth) .whole >>= fun r => pure r.1) s.settle = _
  rw [bind_apply, hchain]
  exact (bind_apply _ _ _).symm

/-- **What a position of a text leaves ahead**: so many characters lie before it, and these
behind it. -/
structure Leaves (text : List Char) (position : Nat) (rest : List Char) : Prop where
  suffix : rest <:+ text
  length : position + rest.length = text.length

/-- **Verdicts on two texts that go together**: the same value, violations that go together at
places behind which the texts are read alike, or the same other error. -/
inductive Verdicts (L : Likeness) (text₁ text₂ : List Char) :
    Except EvalError Float → Except EvalError Float → Prop
  | value (x : Float) : Verdicts L text₁ text₂ (.ok x) (.ok x)
  | malformed {p₁ p₂ : Nat} {v₁ v₂ : Violation} {rest₁ rest₂ : List Char} :
      Leaves text₁ p₁ rest₁ → Leaves text₂ p₂ rest₂ → L.ahead rest₁ rest₂ →
      L.Violations v₁ v₂ →
      Verdicts L text₁ text₂ (.error (.malformed p₁ v₁)) (.error (.malformed p₂ v₂))
  | other {e : EvalError} : (∀ p v, e ≠ .malformed p v) →
      Verdicts L text₁ text₂ (.error e) (.error e)

/-- A run over a malformed text leaves ahead what lies behind the position that its error tells. -/
lemma leaves_of_malformed {env : Env ω σ} {text : List Char} {h : σ} {p : Nat} {v : Violation}
    {t : Running σ} (hrun : formula env (.facing 0 text 0 h) = .error (.malformed p v) t) :
    Leaves text p t.cursor.rest := by
  obtain ⟨hrest, hlength⟩ : Cursor.Reaches ⟨0, text⟩ t.cursor := by
    have hreaches := (forward_formula env).reaches (.facing 0 text 0 h)
    rwa [hrun] at hreaches
  refine ⟨hrest, ?_⟩
  rw [position_of_malformed hrun]
  simpa [Cursor.length] using hlength

include hfinds in
/-- **Texts that are read alike have verdicts that go together**, and their evaluations leave the
host in the same state. The blanks before them do not matter.

**Proof sketch.** Both formulas come to the same behind those blanks, and where a run stops tells
its position. -/
theorem eval_alike (e₁ e₂ : Evaluator) {text₁ text₂ : String}
    (h : L.ahead (Text.dropBlanks text₁.toList) (Text.dropBlanks text₂.toList)) (host : σ) :
    L.Verdicts text₁.toList text₂.toList (e₁.eval env text₁ host).1 (e₂.eval env text₂ host).1 ∧
      (e₁.eval env text₁ host).2.2 = (e₂.eval env text₂ host).2.2 := by
  have hjoined : L.Joined (Running.facing 0 text₁.toList 0 host).settle
      (Running.facing 0 text₂.toList 0 host).settle := ⟨h, rfl, rfl⟩
  have hout := formula_alike hfinds _ _ hjoined
  rw [formula_settle, formula_settle] at hout
  rw [Evaluator.eval_eq, Evaluator.eval_eq]
  cases h₁ : formula env (.facing 0 text₁.toList 0 host) <;>
    cases h₂ : formula env (.facing 0 text₂.toList 0 host) <;> rw [h₁, h₂] at hout
  case ok.ok x t₁ y t₂ =>
    cases hout with
    | ok hx ht =>
      subst hx
      exact ⟨.value x, ht.host⟩
  case ok.error => cases hout
  case error.ok => cases hout
  case error.error =>
    cases hout with
    | error he ht =>
      refine ⟨?_, ht.host⟩
      cases he with
      | malformed hv =>
        exact .malformed (leaves_of_malformed h₁) (leaves_of_malformed h₂) ht.ahead hv
      | other he => exact .other he

end Likeness

end Formula
