import Formula.Machine
import Formula.Proofs.Lexical.References
import Formula.Proofs.Lockstep.Hosts
import Formula.Proofs.Steps

set_option relaxedAutoImplicit false
set_option autoImplicit false

/-!
# Registers

A machine gathers names in a register, looks up the names of a path one by one, and counts levels in
another register. An evaluation without registers hands names over as values, scans a path as a
whole, and is given the levels that are left. The two run in lockstep: a register is wiped before it
is used, and the levels counted and the levels left always come to the limit. So the registers do
not show in any result, and what was in them before does not matter.

## Main definitions

* `Formula.Registers.Holds` — registers that stand for a host's state at a level.
* `Formula.Coupling.counting` — the coupling of a machine with an evaluation without registers.

## Main results

* `Formula.Path.scan_eq`, `Formula.Scanner.memberPath_step` — a path is read name by name.
* `Formula.Coupling.Lockstep.machine_operand` — operands are read in lockstep on both sides.
* `Formula.Machine.eval_eq` — a machine evaluates as if it had no registers.
-/

namespace Formula

variable {ω σ α β : Type}

/-! ## Paths, name by name -/

/-- **A path is a name, or a name, a point and a path**; without a name it is malformed. -/
lemma Path.scan_eq (c : Cursor) :
    scan c =
      if c.run Text.isWordChar = [] then ⟨[], false, c.skipWhile Text.isWordChar⟩
      else if (c.skipWhile Text.isWordChar).current = some '.' then
        let path := scan (c.skipWhile Text.isWordChar).advance
        { path with names := String.ofList (c.run Text.isWordChar) :: path.names }
      else ⟨[String.ofList (c.run Text.isWordChar)], true, c.skipWhile Text.isWordChar⟩ := by
  have hrest := List.head?_dropWhile_not Text.isWordChar c.rest
  have hscan : scan c = scanFrom (c.run Text.isWordChar).reverse
      (c.skipWhile Text.isWordChar).position (c.skipWhile Text.isWordChar).rest := by
    have hword : ∀ d ∈ c.run Text.isWordChar, Text.isWordChar d = true :=
      List.all_eq_true.mp List.all_takeWhile
    have h := scanFrom_name hword [] (c.skipWhile Text.isWordChar).rest c.position
    rw [Cursor.run, Cursor.skipWhile, List.takeWhile_append_dropWhile, List.append_nil] at h
    exact h
  rw [hscan]
  generalize hskip : c.skipWhile Text.isWordChar = stop
  obtain ⟨p, cs⟩ := stop
  obtain rfl : c.rest.dropWhile Text.isWordChar = cs := congrArg Cursor.rest hskip
  generalize c.run Text.isWordChar = name
  generalize c.rest.dropWhile Text.isWordChar = cs at hrest
  cases cs with
  | nil => cases name <;> simp [scanFrom, scanFrom.close, Cursor.current]
  | cons d cs =>
    have hd : Text.isWordChar d = false := by simpa using hrest
    simp only [scanFrom, hd, Bool.false_eq_true, if_false, Cursor.current, List.head?_cons,
      Option.some.injEq]
    by_cases hname : name = []
    · simp [hname, scanFrom.close]
    · by_cases hpoint : d = '.'
      · simp [hname, hpoint, scan, Cursor.advance, Cursor.advanceBy]
      · simp [hname, hpoint, scanFrom.close]

namespace Scanner

/-- The member of an object that may be absent. -/
def memberOf (model : ObjectModel ω σ) (name : String) : Option ω → Scanner σ (Option ω)
  | some object => onHost (model.member object name)
  | none => pure none

/-- **A path is read name by name**: each is looked up in turn, and the object at the end is asked
for its number. -/
lemma memberPath_step (env : Env ω σ) (target : Option ω) :
    memberPath env target = (do
      let name ← takeRun Text.isWordChar
      if name = [] then fail .missingMember
      else
        let found ← memberOf env.model (String.ofList name) target
        if ← accept '.' then memberPath env found
        else numberOf env found) := by
  funext s
  rw [bind_of_ok (takeRun_apply _ _), memberPath_apply, Path.scan_eq s.cursor]
  generalize s.cursor.run Text.isWordChar = name
  generalize s.cursor.skipWhile Text.isWordChar = behind
  -- what the step of the lookup leaves behind, whether or not there is something to look up in
  obtain ⟨found, host, hmember, hfollow⟩ : ∃ found host,
      memberOf env.model (String.ofList name) target { s with cursor := behind } =
        .ok found { s with cursor := behind, host := host } ∧
      ∀ names, env.model.follow target (String.ofList name :: names) s.host =
        env.model.follow found names host := by
    cases target with
    | none => exact ⟨none, s.host, rfl, fun names => by cases names <;> rfl⟩
    | some object => exact ⟨_, _, rfl, fun names => rfl⟩
  have hend : ∀ host, env.model.follow found [] host = (found, host) := by
    intro host
    cases found <;> rfl
  by_cases hname : name = []
  · simp only [hname, if_true]
    cases target <;> rfl
  · simp only [hname, if_false]
    rw [bind_of_ok hmember, bind_apply (accept '.'), accept_apply]
    dsimp only
    by_cases hpoint : behind.current = some '.'
    · simp only [hpoint, if_true]
      rw [memberPath_apply, bind_apply, bind_apply, onHost_apply, onHost_apply, hfollow]
    · simp only [hpoint, if_false]
      rw [bind_apply, onHost_apply, hfollow, hend]
      rfl

end Scanner

/-! ## Registers beside a run without them -/

/-- **Registers that stand for a host's state at a level**: they hold that state and count that many
levels; the name is left open. -/
structure Registers.Holds (level : Nat) (r : Registers σ) (host : σ) : Prop where
  host : r.host = host
  nesting : r.nesting = level

/-- The host's part of the registers carries the host's state. -/
lemma Registers.carries (level : Nat) :
    (Registers.part : Part (Registers σ) σ).Carries (Holds level) where
  get h := h.host
  set _ h := ⟨rfl, h.nesting⟩

/-- A host beside registers gives the same answers as on its own. -/
lemma Env.alike_onRegisters (env : Env ω σ) (level : Nat) :
    Alike (Registers.Holds level) env.onRegisters env :=
  Env.alike_within (Registers.carries level) env.context env.model env.random env.tick env.maxDepth

namespace Coupling

/-- **The coupling of a machine with an evaluation without registers**, while the machine counts so
many levels. -/
abbrev counting (σ : Type) (text : List Char) (level : Nat) : Coupling (Registers σ) σ :=
  alike (Registers.Holds level) text

namespace Lockstep

variable {text : List Char} {level : Nat}

section

variable {R : α → β → Prop} {m₁ : Scanner (Registers σ) α} {m₂ : Scanner σ β}

/-- Writing to the register of the name goes unnoticed. -/
protected lemma write {f : Registers σ → Registers σ}
    (hf : ∀ r host, Registers.Holds level r host → Registers.Holds level (f r) host)
    (hm : (counting σ text level).Lockstep R m₁ m₂) :
    (counting σ text level).Lockstep R (Machine.write f >>= fun _ => m₁) m₂ :=
  fun _ _ hs => hm _ _ ⟨hs.cursor, hs.depth, hs.suffix, hf _ _ hs.hosts⟩

/-- Wiping the register of the name goes unnoticed. -/
protected lemma clear (hm : (counting σ text level).Lockstep R m₁ m₂) :
    (counting σ text level).Lockstep R (Machine.clear >>= fun _ => m₁) m₂ :=
  .write (fun _ _ h => ⟨h.host, h.nesting⟩) hm

/-- Gathering characters goes unnoticed. -/
protected lemma gather (cs : List Char) (hm : (counting σ text level).Lockstep R m₁ m₂) :
    (counting σ text level).Lockstep R (Machine.gather cs >>= fun _ => m₁) m₂ :=
  .write (fun _ _ h => ⟨h.host, h.nesting⟩) hm

/-- **A level is counted** while something is read on it, and no longer afterwards, also when that
stops with an error. -/
protected lemma counted (hm : (counting σ text (level + 1)).Lockstep R m₁ m₂) :
    (counting σ text level).Lockstep R (Machine.counted m₁) m₂ := by
  intro s₁ s₂ hs
  have hout := hm { s₁ with host := { s₁.host with nesting := s₁.host.nesting + 1 } } s₂
    ⟨hs.cursor, hs.depth, hs.suffix, hs.hosts.host, congrArg (· + 1) hs.hosts.nesting⟩
  unfold Machine.counted
  generalize m₁ _ = r₁ at hout ⊢
  generalize m₂ s₂ = r₂ at hout ⊢
  have hback : ∀ {t₁ t₂}, (counting σ text (level + 1)).Joined t₁ t₂ →
      (counting σ text level).Joined
        { t₁ with host := { t₁.host with nesting := t₁.host.nesting - 1 } } t₂ :=
    fun ht => ⟨ht.cursor, ht.depth, ht.suffix, ht.hosts.host, congrArg (· - 1) ht.hosts.nesting⟩
  cases hout with
  | ok ha ht => exact .ok ha (hback ht)
  | error he ht => exact .error he (hback ht)
  | escape he => exact he.elim

end

end Lockstep

end Coupling

namespace Machine

variable (env : Env ω (Registers σ)) (inner : Option (Scanner (Registers σ) Float))

/-! ## Names that are gathered -/

/-- The name of a constant is what was taken for it. -/
lemma namedConstant_eq :
    namedConstant env = (do
      clear
      let negative ← Scanner.accept '-'
      gather (if negative then ['-'] else [])
      let run ← Scanner.takeRun Text.isWordChar
      gather (Text.lowerName run)
      let name := if negative then '-' :: Text.lowerName run else Text.lowerName run
      return (constant? (String.ofList name) env.tick).getD 0.0) := by
  funext s
  show (Scanner.accept '-' >>= _) _ = (Scanner.accept '-' >>= _) _
  refine Scanner.bind_congr fun negative t haccept => ?_
  obtain ⟨-, -, hhost⟩ := Scanner.rest_of_accept haccept
  obtain ⟨t, ⟨scratch, nesting, host⟩⟩ := t
  obtain rfl : scratch = [] := congrArg Registers.scratch hhost
  cases negative <;> rfl

/-- The name of a member is what was taken for it. -/
lemma memberPath_succ (rounds : Nat) (target : Option ω) :
    memberPath env (rounds + 1) target = (do
      clear
      let name ← Scanner.takeRun Text.isWordChar
      gather name
      if name = [] then Scanner.fail .missingMember
      else
        let found ← Scanner.memberOf env.model (String.ofList name) target
        if ← Scanner.accept '.' then memberPath env rounds found
        else Scanner.numberOf env found) := by
  cases target <;> rfl

/-- The name of a type is what was taken for it. -/
lemma componentPath_eq :
    componentPath env = (do
      clear
      let typeName ← Scanner.takeRun fun c => c ≠ ')'
      gather typeName
      if ← Scanner.accept ')' then
        if ← Scanner.accept '.' then
          let name := String.ofList (Text.trimBlanks typeName)
          path env (← Scanner.onHost (env.model.component env.context name))
        else Scanner.fail (.missingPath (String.ofList typeName))
      else Scanner.fail .openTypeName) := by
  funext s
  show (Scanner.accept ')' >>= _) _ = (Scanner.accept ')' >>= _) _
  refine Scanner.bind_congr fun closed t hclosed => ?_
  cases closed with
  | false => rfl
  | true =>
    show (Scanner.accept '.' >>= _) t = (Scanner.accept '.' >>= _) t
    refine Scanner.bind_congr fun dotted u hdotted => ?_
    have hname : u.host.scratch = s.cursor.run fun c => c ≠ ')' := by
      rw [(Scanner.rest_of_accept hdotted).2.2, (Scanner.rest_of_accept hclosed).2.2]
      rfl
    cases dotted with
    | false =>
      show Scanner.fail (.missingPath (String.ofList u.host.scratch)) u = _
      rw [hname]
      rfl
    | true =>
      show (Scanner.onHost (env.model.component env.context
        (String.ofList (Text.trimBlanks u.host.scratch))) >>= path env) u = _
      rw [hname]
      rfl

/-- The name of a function is what was taken for it. -/
lemma call_eq :
    call env inner = (do
      clear
      let run ← Scanner.takeRun Char.isAlphanum
      gather (Text.lower run)
      Scanner.skipBlanks
      let name := String.ofList (Text.lower run)
      if ← Scanner.accept '(' then
        Scanner.openParen
        match Builtin.named? name with
        | none => throw (.unknownFunction name)
        | some f =>
          let args ← nested env inner (Scanner.arguments f)
          match ← Scanner.onHost (f.call env.random args) with
          | some result => return result
          | none => throw (.argumentCount f)
      else Scanner.fail (.missingOpen name)) :=
  rfl

end Machine

/-! ## A machine in lockstep with an evaluation without registers -/

namespace Coupling

variable {text : List Char} {level : Nat}

/-- What two runs come to in an end of a text they come to in the text. -/
lemma Outcome.of_suffix {R : α → β → Prop} (ahead : List Char)
    {r₁ : EStateM.Result EvalError (Running (Registers σ)) α}
    {r₂ : EStateM.Result EvalError (Running σ) β}
    (h : (counting σ ahead level).Outcome R r₁ r₂) (hsuffix : ahead <:+ text) :
    (counting σ text level).Outcome R r₁ r₂ := by
  cases h with
  | ok ha ht => exact .ok ha ⟨ht.cursor, ht.depth, ht.suffix.trans hsuffix, ht.hosts⟩
  | error he ht => exact .error he ⟨ht.cursor, ht.depth, ht.suffix.trans hsuffix, ht.hosts⟩
  | escape he => exact he.elim

/-- A host beside registers refers to the same objects. -/
lemma counting_refers (env : Env ω σ) :
    (counting σ text level).Refers Eq env.onRegisters env :=
  alike_refers (env.alike_onRegisters level)

/-- A host beside registers keeps a machine in lockstep. -/
lemma counting_respects (env : Env ω σ) :
    (counting σ text level).Respects env.onRegisters env :=
  alike_respects (env.alike_onRegisters level) text

namespace Lockstep

variable (env : Env ω σ)

/-- The member of an object is looked up in lockstep. -/
protected lemma memberOf (name : String) (target : Option ω) :
    (counting σ text level).Lockstep Eq (Scanner.memberOf env.onRegisters.model name target)
      (Scanner.memberOf env.model name target) := by
  cases target with
  | none => exact .pure rfl
  | some object => exact .onHost_alike ((env.alike_onRegisters level).member object name)

/-- The names of constants are read in lockstep. -/
protected lemma machine_namedConstant :
    (counting σ text level).Lockstep Eq (Machine.namedConstant env.onRegisters)
      (Scanner.namedConstant env) := by
  rw [Machine.namedConstant_eq]
  refine .clear (.bind (.accept '-') ?_)
  rintro negative _ rfl
  refine .gather _ (.bind (.takeRun Text.isWordChar) ?_)
  rintro run _ ⟨rfl, -⟩
  exact .gather _ (.pure rfl)

/-- **Paths are read in lockstep**, name by name on the one side and as a whole on the other, in
more rounds than there are characters.

**Proof sketch.** Induction on the rounds. A path read as a whole is read name by name as well. A
name is not empty, so behind it there are fewer characters, and the induction hypothesis applies to
the path behind its point. -/
protected lemma machine_memberPath {rounds : Nat} (hrounds : text.length < rounds)
    (target : Option ω) :
    (counting σ text level).Lockstep Eq (Machine.memberPath env.onRegisters rounds target)
      (Scanner.memberPath env target) := by
  induction rounds generalizing text target with
  | zero => omega
  | succ rounds ih =>
    rw [Machine.memberPath_succ, Scanner.memberPath_step]
    refine .clear fun s₁ s₂ hs => ?_
    rw [Scanner.bind_of_ok (Scanner.takeRun_apply _ _),
      Scanner.bind_of_ok (Scanner.takeRun_apply _ _), ← hs.cursor]
    have hlength := congrArg List.length
      (List.takeWhile_append_dropWhile (p := Text.isWordChar) (l := s₁.cursor.rest))
    rw [List.length_append] at hlength
    have hsuffix : s₁.cursor.rest.dropWhile Text.isWordChar <:+ text :=
      (List.dropWhile_suffix _).trans hs.suffix
    have hle : s₁.cursor.rest.length ≤ text.length := hs.suffix.length_le
    by_cases hname : s₁.cursor.run Text.isWordChar = []
    · simp only [hname, if_true]
      exact Lockstep.gather [] (.violation fun _ => rfl) _ _ ⟨rfl, hs.depth, hsuffix, hs.hosts⟩
    · simp only [hname, if_false]
      have hpos : 0 < (s₁.cursor.run Text.isWordChar).length := List.length_pos_iff.mpr hname
      have hfewer : (s₁.cursor.rest.dropWhile Text.isWordChar).length < rounds := by
        rw [Cursor.run] at hpos
        omega
      refine .of_suffix (s₁.cursor.rest.dropWhile Text.isWordChar) ?_ hsuffix
      refine Lockstep.gather _ (.bind (.memberOf env _ target) ?_) _ _
        ⟨rfl, hs.depth, List.suffix_rfl, hs.hosts⟩
      rintro found _ rfl
      refine .bind (.accept '.') ?_
      rintro more _ rfl
      cases more with
      | false => exact (counting_refers env).number rfl
      | true => exact ih hfewer found

/-- Paths are read in lockstep. -/
protected lemma machine_path (target : Option ω) :
    (counting σ text level).Lockstep Eq (Machine.path env.onRegisters target)
      (Scanner.memberPath env target) := by
  intro s₁ s₂ hs
  have hlock : (counting σ s₁.cursor.rest level).Lockstep Eq _ _ :=
    .machine_memberPath env (Nat.lt_succ_self s₁.cursor.rest.length) target
  exact .of_suffix _ (hlock s₁ s₂ ⟨hs.cursor, hs.depth, List.suffix_rfl, hs.hosts⟩) hs.suffix

/-- Paths of components are read in lockstep. -/
protected lemma machine_componentPath :
    (counting σ text level).Lockstep Eq (Machine.componentPath env.onRegisters)
      (Scanner.componentPath env) := by
  rw [Machine.componentPath_eq]
  refine .clear (.bind (.takeRun _) ?_)
  rintro typeName _ ⟨rfl, -⟩
  refine .gather _ (.bind (.accept ')') ?_)
  rintro closed _ rfl
  cases closed with
  | false => exact .violation fun _ => rfl
  | true =>
    refine .bind (.accept '.') ?_
    rintro dotted _ rfl
    cases dotted with
    | false => exact .violation fun _ => rfl
    | true =>
      refine .bind ((counting_refers env).component _) ?_
      rintro component _ rfl
      exact .machine_path env component

/-- References are read in lockstep. -/
protected lemma machine_reference :
    (counting σ text level).Lockstep Eq (Machine.reference env.onRegisters)
      (Scanner.reference env) := by
  have hC : (counting σ text level).Refers Eq env.onRegisters env := counting_refers env
  have hwhole : (counting σ text level).Lockstep Eq (Scanner.wholeContext env.onRegisters)
      (Scanner.wholeContext env) := hC.number hC.context
  refine .bind .current ?_
  rintro (_ | c) _ rfl
  · exact hwhole
  · refine .bind .next ?_
    rintro following _ rfl
    split_ifs
    · exact .machine_namedConstant env
    · exact hwhole
    · exact .bind .advance fun _ _ _ => .machine_path env _
    · exact .bind .advance fun _ _ _ => .machine_componentPath env
    · exact .machine_namedConstant env
    · exact .violation fun _ => rfl

/-! ### Levels -/

/-- **Levels that are counted and levels that are left**: either there is a level more on both
sides, and on it operands are read in lockstep, or the count has come to the limit and no level is
left. -/
inductive Deeper (text : List Char) (level limit : Nat) :
    Option (Scanner (Registers σ) Float) → Option (Scanner σ Float) → Prop
  | more {one₁ : Scanner (Registers σ) Float} {one₂ : Scanner σ Float} : level < limit →
      (counting σ text (level + 1)).Lockstep Eq one₁ one₂ →
      Deeper text level limit (some one₁) (some one₂)
  | last : level = limit → Deeper text level limit none none

variable {env} {inner₁ : Option (Scanner (Registers σ) Float)}
  {inner₂ : Option (Scanner σ Float)}

/-- **Going a level deeper is done in lockstep**: the count tells that the limit has been reached
exactly when no level is left. -/
protected lemma machine_nested (hinner : Deeper text level env.maxDepth inner₁ inner₂)
    {R : α → β → Prop} {body₁ : Scanner (Registers σ) Float → Scanner (Registers σ) α}
    {body₂ : Scanner σ Float → Scanner σ β}
    (hbody : ∀ one₁ one₂, (counting σ text (level + 1)).Lockstep Eq one₁ one₂ →
      (counting σ text (level + 1)).Lockstep R (body₁ one₁) (body₂ one₂)) :
    (counting σ text level).Lockstep R (Machine.nested env.onRegisters inner₁ body₁)
      (Scanner.nested env inner₂ body₂) := by
  intro s₁ s₂ hs
  unfold Machine.nested
  rw [Scanner.bind_of_ok (Scanner.onHost_apply _ _)]
  have hcount : s₁.host.nesting = level := hs.hosts.nesting
  cases hinner with
  | more hlevel hone =>
    have hbelow : ¬ env.onRegisters.maxDepth ≤ s₁.host.nesting := by
      rw [hcount]
      exact Nat.not_le_of_lt hlevel
    simp only [if_neg hbelow]
    exact Lockstep.counted (hbody _ _ hone) _ _ hs
  | last hlevel =>
    have hreached : env.onRegisters.maxDepth ≤ s₁.host.nesting := by
      rw [hcount, hlevel]
      exact Nat.le_refl _
    simp only [if_pos hreached]
    exact .error rfl hs

/-- Calls are made in lockstep. -/
protected lemma machine_call (hinner : Deeper text level env.maxDepth inner₁ inner₂) :
    (counting σ text level).Lockstep Eq (Machine.call env.onRegisters inner₁)
      (Scanner.call env inner₂) := by
  rw [Machine.call_eq]
  refine .clear (.bind (.takeRun Char.isAlphanum) ?_)
  rintro run _ ⟨rfl, -⟩
  refine .gather _ (.bind .skipBlanks fun _ _ _ => .bind (.accept '(') ?_)
  rintro opened _ rfl
  cases opened with
  | false => exact .violation fun _ => rfl
  | true =>
    refine .bind .openParen fun _ _ _ => ?_
    cases Builtin.named? (String.ofList (Text.lower run)) with
    | none => exact .throw rfl
    | some f =>
      refine .bind (.machine_nested hinner fun _ _ hone =>
        .arguments (counting_respects env) hone f) ?_
      intro args₁ args₂ hargs
      obtain rfl : args₁ = args₂ := hargs.eq_of_alike
      refine .bind (.onHost_alike ((env.alike_onRegisters level).call f args₁)) ?_
      rintro result _ rfl
      cases result with
      | none => exact .throw rfl
      | some x => exact .pure rfl

/-- **Operands are read in lockstep**, if the levels below them are related. -/
protected lemma machine_operandWith (hinner : Deeper text level env.maxDepth inner₁ inner₂) :
    (counting σ text level).Lockstep Eq (Machine.operandWith env.onRegisters inner₁)
      (Scanner.operandWith env inner₂) := by
  have hsign : (counting σ text level).Lockstep Eq (Machine.nested env.onRegisters inner₁ id)
      (Scanner.nested env inner₂ id) :=
    .machine_nested hinner fun _ _ hone => hone
  refine .bind .skipBlanks fun _ _ _ => .bind .current ?_
  rintro (_ | c) _ rfl
  · exact .violation fun _ => rfl
  · dsimp only
    split_ifs
    · exact .number (counting_respects env)
    · exact .machine_call hinner
    · exact .bind .advance fun _ _ _ => .machine_reference env
    · refine .bind .advance fun _ _ _ => .bind .openParen fun _ _ _ => ?_
      exact .bind (.machine_nested hinner fun _ _ hone =>
        .chain (counting_respects env) hone .group) fun _ _ ha => .pure ha.1
    · exact .bind .advance fun _ _ _ => hsign
    · refine .bind .advance fun _ _ _ => .bind hsign ?_
      rintro x _ rfl
      exact .pure rfl
    · exact .pure rfl
    · exact .violation fun _ => rfl

/-- **Operands are read in lockstep** when the levels counted and the levels left come to the limit.

**Proof sketch.** Induction on the levels left. Going a level deeper counts one and leaves one
fewer, so their sum stays the limit. -/
theorem machine_operand {levels : Nat} (hlevels : level + levels = env.maxDepth) :
    (counting σ text level).Lockstep Eq (Machine.operand env.onRegisters levels)
      (Scanner.operand env levels) := by
  induction levels generalizing level with
  | zero => exact .machine_operandWith (.last hlevels)
  | succ levels ih =>
    have hbelow : level < env.maxDepth := by omega
    exact .machine_operandWith (.more hbelow (ih (by omega)))

/-- Whole texts are read in lockstep. -/
theorem machine_formula :
    (counting σ text 0).Lockstep Eq (Machine.formula env.onRegisters) (Scanner.formula env) :=
  .bind (.chain (counting_respects env) (machine_operand (Nat.zero_add _)) .whole)
    fun _ _ ha => .pure ha.1

end Lockstep

end Coupling

/-- **A machine evaluates as if it had no registers**, whatever was left in them, and nothing is
left of the evaluation, whether it gives a value or an error.

**Proof sketch.** A machine is recycled before it starts, so no level is counted and all are left;
and it is recycled again at the end. In between it runs in lockstep with an evaluation without
registers. -/
theorem Machine.eval_eq (m : Machine) (env : Env ω σ) (text : String) (host : σ) :
    m.eval env text host =
      ((Evaluator.blank.eval env text host).1, blank,
        (Evaluator.blank.eval env text host).2.2) := by
  have hlock : (Coupling.counting σ text.toList 0).Lockstep Eq (formula env.onRegisters)
      (Scanner.formula env) := Coupling.Lockstep.machine_formula
  have hout := hlock (m.recycle.start text host) (.facing 0 text.toList 0 host)
    ⟨rfl, rfl, List.suffix_rfl, rfl, rfl⟩
  rw [Evaluator.eval_eq, Machine.eval]
  obtain ⟨x, t₁, t₂, hrun₁, hrun₂, hleft⟩ | ⟨e, t₁, t₂, hrun₁, hrun₂, hleft⟩ := hout.eq_of_alike
  · rw [hrun₁, hrun₂]
    dsimp only
    rw [hleft.host]
    rfl
  · rw [hrun₁, hrun₂]
    dsimp only
    rw [hleft.host]
    rfl

end Formula
