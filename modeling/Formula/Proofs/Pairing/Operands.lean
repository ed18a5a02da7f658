import Formula.Proofs.Pairing

set_option relaxedAutoImplicit false
set_option autoImplicit false

/-!
# Operands and chains of two texts side by side

What is read alike by the parts that read characters is read alike by operands, chains and calls:
from paired states they come to the same. Links may have different numbers of characters ahead in
the two texts, but the number of their rounds does not matter when there are enough of them, so both
runs are taken in as many rounds as the longer text needs.

## Main results

* `Formula.Pairing.Respects.links` — links come to the same if operands do.
* `Formula.Pairing.Respects.operand` — operands come to the same.
* `Formula.Pairing.Respects.formula` — so do whole texts.
-/

namespace Formula

open Scanner

variable {ω σ α β : Type} {P : Pairing σ} {env : Env ω σ}

namespace Scanner

/-- Links move forward. -/
protected lemma Forward.links (env : Env ω σ) (levels : Nat) (scope : Scope) (r : Float) :
    Forward (links env levels scope r) where
  reaches s := ((forward_operand env levels).chainRest scope _ r).reaches s
  standsAt hrun := ((forward_operand env levels).chainRest scope _ r).standsAt hrun

/-- Behind the name of a function its arguments are read if a parenthesis is opened. -/
lemma called_apply (env : Env ω σ) (inner : Option (Scanner σ Float)) (name : List Char)
    (s : Running σ) :
    called env inner name s =
      if s.cursor.current = some '(' then
        (match Builtin.named? (String.ofList (Text.lower name)) with
          | none => throw (.unknownFunction (String.ofList (Text.lower name)))
          | some f => applied env inner f : Scanner σ Float) s.opened
      else fail (.missingOpen (String.ofList (Text.lower name))) s := by
  rw [called, bind_apply, accept_apply]
  split_ifs <;> rfl

end Scanner

namespace Pairing

/-- Arguments come to the same if their chains do. -/
protected lemma Outcome.argument {one : Scanner σ Float} {s₁ s₂ : Running σ}
    (h : P.Outcome (chain one .argument s₁) (chain one .argument s₂)) :
    P.Outcome (argument one s₁) (argument one s₂) :=
  h.map fun r => (r.1, r.2 == Ending.close)

namespace Respects

variable (hP : P.Respects env)

include hP

/-! ## What lies ahead -/

/-- **What lies behind the blanks ahead of paired states**: in both the end of the text, or the same
character, which is no blank. -/
lemma settled {s₁ s₂ : Running σ} (hs : P.joined s₁ s₂) :
    P.astray s₁.settle ∨ P.joined s₁.settle s₂.settle ∧ ∃ (p₁ p₂ d : Nat) (h : σ),
      (s₁.settle = .facing p₁ [] d h ∧ s₂.settle = .facing p₂ [] d h) ∨
        ∃ (c : Char) (cs₁ cs₂ : List Char), Text.isBlank c = false ∧
          s₁.settle = .facing p₁ (c :: cs₁) d h ∧ s₂.settle = .facing p₂ (c :: cs₂) d h := by
  have hblanks : P.Outcome (.ok () s₁.settle) (.ok () s₂.settle) := hP.skipBlanks s₁ s₂ hs
  cases hblanks with
  | astray ht => exact .inl ht
  | ok ht =>
    refine .inr ⟨ht, ?_⟩
    have hhead := s₁.head_settle
    generalize s₁.settle = t₁ at ht hhead ⊢
    generalize s₂.settle = t₂ at ht ⊢
    have hcurrent := hP.current ht
    obtain ⟨⟨⟨p₁, rest₁⟩, d⟩, h⟩ := t₁
    obtain ⟨⟨⟨p₂, rest₂⟩, d₂⟩, h₂⟩ := t₂
    obtain rfl : d = d₂ := hP.depth ht
    obtain rfl : h = h₂ := hP.host ht
    refine ⟨p₁, p₂, d, h, ?_⟩
    cases rest₁ with
    | nil =>
      obtain rfl : rest₂ = [] := List.head?_eq_none_iff.mp hcurrent.symm
      exact .inl ⟨rfl, rfl⟩
    | cons c cs₁ =>
      obtain ⟨cs₂, rfl⟩ : ∃ cs₂, rest₂ = c :: cs₂ :=
        List.head?_eq_some_iff.mp hcurrent.symm
      exact .inr ⟨c, cs₁, cs₂, hhead c rfl, rfl, rfl⟩

/-! ## Chains -/

/-- The end of the text ends a chain in both runs or in neither. -/
protected lemma endOfText (scope : Scope) (r : Float) : P.Paired (endOfText scope r) := by
  unfold endOfText
  split_ifs
  · exact .pure _
  · exact hP.fail _

/-- **The rest of a chain comes to the same** in equally many rounds, if its operands do.

**Proof sketch.** Induction on the rounds. Behind the blanks both texts end or go on with the same
character, so both runs end the chain or both read the same operator and an operand, and the next
round is the induction hypothesis. -/
protected lemma chainRest {one : Scanner σ Float} (hone : P.Paired one) (hforward : Forward one)
    (scope : Scope) (rounds : Nat) (r : Float) : P.Paired (chainRest one scope rounds r) := by
  induction rounds generalizing r with
  | zero => exact hP.endOfText scope r
  | succ rounds ih =>
    intro s₁ s₂ hs
    rw [← chainRest_settle one scope rounds r s₁, ← chainRest_settle one scope rounds r s₂]
    rcases hP.settled hs with ht | ⟨ht, p₁, p₂, d, h, ⟨h₁, h₂⟩ | ⟨c, cs₁, cs₂, hc, h₁, h₂⟩⟩
    · exact .of_astray (hforward.chainRest scope _ r) ht _
    · rw [h₁, h₂] at ht ⊢
      rw [chainRest_nil, chainRest_nil]
      exact hP.endOfText scope r _ _ ht
    · rw [h₁, h₂] at ht ⊢
      rw [chainRest_cons one hc, chainRest_cons one hc]
      split_ifs with hclose hcomma
      · exact (hP.closeParen ht (congrArg some hclose)).map fun _ => (r, Ending.close)
      · have hopen : Cursor.current ⟨p₁, c :: cs₁⟩ ≠ some '(' := by
          rw [hcomma.1]
          exact fun h => absurd (Option.some.inj h) (by decide)
        exact (hP.advance ht hopen).map fun _ => (r, Ending.comma)
      · refine (hP.operator ht rfl).bind (fun op => ?_) fun op t₁ t₂ ht => ?_
        · exact hforward.bind fun right => hforward.chainRest scope rounds _
        · exact (hone t₁ t₂ ht).bind (fun right => hforward.chainRest scope rounds _)
            fun right => ih _

variable {levels : Nat}

/-- **Links come to the same if operands do**, also where the texts ahead differ in length. -/
protected lemma links (hone : P.Paired (operand env levels)) (scope : Scope) (r : Float) :
    P.Paired (links env levels scope r) := by
  intro s₁ s₂ hs
  rw [← chainRest_eq_links env levels scope r s₁ (Nat.le_max_left _ s₂.cursor.rest.length),
    ← chainRest_eq_links env levels scope r s₂ (Nat.le_max_right s₁.cursor.rest.length _)]
  exact hP.chainRest hone (forward_operand env levels) scope _ r s₁ s₂ hs

/-- Chains come to the same if operands do. -/
protected lemma chain (hone : P.Paired (operand env levels)) (scope : Scope) :
    P.Paired (chain (operand env levels) scope) := by
  rw [chain_eq]
  exact hone.bind (fun first => .links env levels scope first) fun first =>
    hP.links hone scope first

/-- **Chains come to the same behind an opening parenthesis.** -/
lemma chain_opened (hone : P.Paired (operand env levels)) (scope : Scope) {s₁ s₂ : Running σ}
    (hs : P.joined s₁ s₂) (hopen : s₁.cursor.current = some '(') :
    P.Outcome (chain (operand env levels) scope s₁.opened)
      (chain (operand env levels) scope s₂.opened) := by
  rcases hP.opened hs hopen with ht | ht | h
  · exact hP.chain hone scope _ _ ht
  · exact .of_astray ((forward_operand env levels).chain scope) ht _
  · exact h levels scope

/-! ## Calls -/

/-- What is left of the arguments behind the first one comes to the same. -/
protected lemma furtherArguments (hone : P.Paired (operand env levels)) (f : Builtin)
    (r : Float × Bool) : P.Paired (furtherArguments f (operand env levels) r) := by
  unfold Scanner.furtherArguments
  cases f.take none r.1 r.2 with
  | complete args => exact .pure args
  | wrong => exact hP.argumentCount f
  | more =>
    intro s₁ s₂ hs
    refine (hP.chain hone .argument _ _ hs).argument.bind (fun r => ?_) ?_
    · split
      · exact .pure _
      · exact .throw fun _ _ h => by cases h
    · intro r t₁ t₂ ht
      split
      · exact .ok ht
      · exact hP.argumentCount f _ _ ht

/-- **The arguments of a call come to the same if the chain of the first one does.** -/
protected lemma arguments (hone : P.Paired (operand env levels)) (f : Builtin) {s₁ s₂ : Running σ}
    (hfirst : P.Outcome (Scanner.chain (operand env levels) .argument s₁)
      (Scanner.chain (operand env levels) .argument s₂)) :
    P.Outcome (arguments f (operand env levels) s₁) (arguments f (operand env levels) s₂) := by
  rw [arguments_eq]
  exact hfirst.argument.bind (fun r => (forward_operand env levels).furtherArguments f r)
    fun r => hP.furtherArguments hone f r

/-- Calling a function comes to the same. -/
protected lemma invoke (f : Builtin) (args : Arguments) : P.Paired (invoke env f args) := by
  refine (hP.onHost _).bind (fun result => ?_) fun result => ?_
  · cases result
    · exact .throw fun _ _ h => by cases h
    · exact .pure _
  · cases result
    · exact hP.argumentCount f
    · exact .pure _

/-- **Going a level deeper comes to the same** if what is read there does. -/
protected lemma nested {body : Scanner σ Float → Scanner σ α} {s₁ s₂ : Running σ}
    (hhost : s₁.host = s₂.host)
    (h : ∀ l, levels = l + 1 → P.Outcome (body (operand env l) s₁) (body (operand env l) s₂)) :
    P.Outcome (nested env (level env levels) body s₁) (nested env (level env levels) body s₂) := by
  cases levels with
  | zero => exact .error (hP.same fun _ _ h => by cases h) hhost
  | succ l => exact h l rfl

section

variable (hbelow : ∀ l, levels = l + 1 → P.Paired (operand env l))

include hbelow

/-- What stands behind a sign comes to the same. -/
lemma sign {c : Char} (hc : c ≠ '(') {p₁ p₂ d : Nat} {cs₁ cs₂ : List Char} {h : σ}
    (hs : P.joined (.facing p₁ (c :: cs₁) d h) (.facing p₂ (c :: cs₂) d h)) :
    P.Outcome (nested env (level env levels) id (.facing (p₁ + 1) cs₁ d h))
      (nested env (level env levels) id (.facing (p₂ + 1) cs₂ d h)) := by
  have hopen : Cursor.current ⟨p₁, c :: cs₁⟩ ≠ some '(' := fun h => hc (Option.some.inj h)
  have hbehind : P.Outcome (.ok () (.facing (p₁ + 1) cs₁ d h))
      (.ok () (.facing (p₂ + 1) cs₂ d h)) := hP.advance hs hopen
  refine hP.nested rfl fun l hl => ?_
  cases hbehind with
  | ok ht => exact hbelow l hl _ _ ht
  | astray ht => exact .of_astray (forward_operand env l) ht _

/-- **A call comes to the same behind its name**, whatever its arguments are. -/
protected lemma called (name : List Char) : P.Paired (called env (level env levels) name) := by
  intro s₁ s₂ hs
  rw [called_apply, called_apply, ← hP.current hs]
  have hhost : s₁.host = s₂.host := hP.host hs
  split_ifs with hopen
  · cases Builtin.named? (String.ofList (Text.lower name)) with
    | none => exact .error (hP.same fun _ _ h => by cases h) hhost
    | some f =>
      have hargs : P.Outcome (nested env (level env levels) (arguments f) s₁.opened)
          (nested env (level env levels) (arguments f) s₂.opened) :=
        hP.nested hhost fun l hl =>
          hP.arguments (hbelow l hl) f (hP.chain_opened (hbelow l hl) .argument hs hopen)
      exact hargs.bind (fun args => .invoke env f args) fun args => hP.invoke f args
  · exact hP.fail _ _ _ hs

/-- Calls come to the same if the operands of the level below do. -/
protected lemma call : P.Paired (call env (level env levels)) := by
  have hforward (name : List Char) : Forward (called env (level env levels) name) :=
    .called env (fun one hone => by
      cases levels with
      | zero => cases hone
      | succ l =>
        obtain rfl : operand env l = one := Option.some.inj hone
        exact forward_operand env l) name
  have hname : P.Paired (Scanner.takeRun Char.isAlphanum) :=
    fun s₁ s₂ hs => hP.takeRun hs _ (by decide)
  rw [call_eq]
  refine hname.bind (fun name => .bind .skipBlanks fun _ => hforward name) fun name => ?_
  exact hP.skipBlanks.bind (fun _ => hforward name) fun _ => hP.called hbelow name

/-! ## Operands -/

/-- **Operands come to the same** if those of the level below do.

**Proof sketch.** Behind the blanks both texts end or go on with the same character, which decides
what is read. -/
lemma operand_step : P.Paired (operand env levels) := by
  intro s₁ s₂ hs
  rw [← operand_settle env levels s₁, ← operand_settle env levels s₂]
  rcases hP.settled hs with ht | ⟨ht, p₁, p₂, d, h, ⟨h₁, h₂⟩ | ⟨c, cs₁, cs₂, hc, h₁, h₂⟩⟩
  · exact .of_astray (forward_operand env levels) ht _
  · rw [h₁, h₂] at ht ⊢
    rw [operand_eq, operandWith_nil, operandWith_nil]
    exact .error (hP.malformed ht _) rfl
  rw [h₁, h₂] at ht ⊢
  by_cases hdigit : c.isDigit = true
  · rw [operand_digit env _ _ _ _ _ hdigit, operand_digit env _ _ _ _ _ hdigit]
    exact hP.number ht
  by_cases halpha : c.isAlpha = true
  · rw [operand_alpha env _ _ _ _ _ halpha, operand_alpha env _ _ _ _ _ halpha]
    exact hP.call hbelow _ _ ht
  by_cases hother : c ∈ ['$', '(', '+', '-', ')']
  · simp only [List.mem_cons, List.not_mem_nil, or_false] at hother
    rcases hother with rfl | rfl | rfl | rfl | rfl
    · rw [operand_mark, operand_mark]
      exact hP.mark ht rfl
    · rw [operand_open, operand_open]
      have hgroup : P.Outcome
          (nested env (level env levels) (fun one => Scanner.chain one .group)
            (.facing (p₁ + 1) cs₁ (d + 1) h))
          (nested env (level env levels) (fun one => Scanner.chain one .group)
            (.facing (p₂ + 1) cs₂ (d + 1) h)) :=
        hP.nested rfl fun l hl => hP.chain_opened (hbelow l hl) .group ht rfl
      exact hgroup.map Prod.fst
    · rw [operand_plus, operand_plus]
      exact hP.sign hbelow (by decide) ht
    · rw [operand_minus, operand_minus]
      exact (hP.sign hbelow (by decide) ht).map fun x => -x
    · rw [operand_close, operand_close]
      exact .ok ht
  · have hother₁ := operand_other env levels p₁ cs₁ d h hc (by simpa using hdigit)
      (by simpa using halpha) hother
    have hother₂ := operand_other env levels p₂ cs₂ d h hc (by simpa using hdigit)
      (by simpa using halpha) hother
    rw [hother₁, hother₂]
    exact .error (hP.malformed ht _) rfl

end

/-- **Operands come to the same from paired states**, on every level. -/
theorem operand (levels : Nat) : P.Paired (operand env levels) := by
  induction levels with
  | zero => exact hP.operand_step fun l hl => absurd hl.symm (Nat.succ_ne_zero l)
  | succ l ih => exact hP.operand_step fun k hk => Nat.succ.inj hk ▸ ih

/-- **Whole texts come to the same from paired states.** -/
theorem formula : P.Paired (formula env) :=
  fun s₁ s₂ hs => (hP.chain (hP.operand env.maxDepth) .whole s₁ s₂ hs).map Prod.fst

end Respects

end Pairing

end Formula
