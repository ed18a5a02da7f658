import Formula.Proofs.Registers

set_option relaxedAutoImplicit false
set_option autoImplicit false

/-!
# The resolution of paths

A machine looks up the names of a path one by one while it reads them. The first name is looked up
on the context, or on a component that is asked for first, and each further one on what the one
before it has given, up to the first that is absent; the object at the end, if there is one, is
asked for its number once. Nothing is asked for behind what is absent, but the path is read to its
end in any case, and a name that is missing in it is an error there.

The calls are told by a host that keeps a trace of them, with the objects on which they are made.

## Main definitions

* `Formula.ModelCall`, `Formula.Traced`, `Formula.Env.traced` — calls on objects, and hosts that
  keep a trace of them.
* `Formula.PathStart` — what a path starts from.
* `Formula.LooksUp` — the members that are looked up.
* `Formula.Arrives`, `Formula.Resolves` — the calls for a path, without and with that for its
  number.

## Main results

* `Formula.Env.alike_traced` — a trace changes no answer.
* `Formula.Machine.memberPath_dotted` — names with points behind them are looked up one by one.
* `Formula.Machine.path_resolved`, `Formula.Machine.path_missing` — how a path ends.
* `Formula.path_resolution` — paths are resolved with exactly these calls.
-/

namespace Formula

open Scanner

variable {ω σ α : Type}

/-! ## Traces -/

/-- **A call made on the objects of a host**, with the object on which it is made and what it
gives. -/
inductive ModelCall (ω : Type) where
  | number (object : ω) (result : Float)
  | member (object : ω) (name : String) (found : Option ω)
  | component (context : ω) (typeName : String) (found : Option ω)

/-- **A host's state with a trace** of the calls made on its objects, in their order. -/
structure Traced (ω σ : Type) where
  /-- The calls made so far. -/
  calls : List (ModelCall ω)
  /-- The host's own state. -/
  own : σ

/-- Makes a call on the host and adds `entry` to the trace, with what the call gives. -/
def Traced.make (entry : α → ModelCall ω) (call : StateM σ α) : StateM (Traced ω σ) α := fun s =>
  let (a, own) := call s.own
  (a, ⟨s.calls ++ [entry a], own⟩)

/-- The host's own state, as a part of its state with a trace. -/
def Traced.part : Part (Traced ω σ) σ where
  get s := s.own
  set t s := { s with own := t }

/-- **The same objects, every call traced.** -/
def ObjectModel.traced (model : ObjectModel ω σ) : ObjectModel ω (Traced ω σ) where
  number object := Traced.make (.number object) (model.number object)
  member object name := Traced.make (.member object name) (model.member object name)
  component context name := Traced.make (.component context name) (model.component context name)

/-- **The same evaluation, every call on objects traced.** -/
def Env.traced (env : Env ω σ) : Env ω (Traced ω σ) :=
  ⟨env.context, env.model.traced, env.random.within Traced.part, env.tick, env.maxDepth⟩

/-- A host with a trace gives the same answers. -/
lemma Env.alike_traced (env : Env ω σ) :
    Env.Alike (fun (s : Traced ω σ) own => s.own = own) env.traced env where
  context := rfl
  tick := rfl
  maxDepth := rfl
  number _ := by rintro s _ rfl; exact ⟨rfl, rfl⟩
  member _ _ := by rintro s _ rfl; exact ⟨rfl, rfl⟩
  component _ _ := by rintro s _ rfl; exact ⟨rfl, rfl⟩
  uniform _ _ := by rintro s _ rfl; exact ⟨rfl, rfl⟩
  integer _ _ := by rintro s _ rfl; exact ⟨rfl, rfl⟩

/-! ## The calls for a path -/

/-- **What a path starts from**: the context, or a component of it that is named by its type. -/
inductive PathStart where
  | context
  | component (typeName : List Char)

/-- The text of a start, between the mark and the first point. -/
def PathStart.text : PathStart → List Char
  | context => []
  | component typeName => '(' :: typeName ++ [')']

/-- A type name ends in front of the first closing parenthesis. -/
def PathStart.WellFormed : PathStart → Prop
  | context => True
  | component typeName => ')' ∉ typeName

/-- Where a path starts: a component is asked for under its type name without blanks around it. -/
inductive Starts (env : Env ω σ) :
    PathStart → σ → List (ModelCall ω) → Option ω → σ → Prop where
  /-- The context is at hand. -/
  | context {h : σ} : Starts env .context h [] (some env.context) h
  /-- A component is asked for. -/
  | component {typeName : List Char} {h h₁ : σ} {found : Option ω} :
      env.model.component env.context (.ofList (Text.trimBlanks typeName)) h = (found, h₁) →
      Starts env (.component typeName) h
        [.component env.context (.ofList (Text.trimBlanks typeName)) found] found h₁

/-- **The members that are looked up** for names, from a target that may be absent. -/
inductive LooksUp (model : ObjectModel ω σ) :
    Option ω → List String → σ → List (ModelCall ω) → Option ω → σ → Prop where
  /-- All names have been looked up. -/
  | found {object : ω} {h : σ} : LooksUp model (some object) [] h [] (some object) h
  /-- Nothing is looked up on what is absent. -/
  | absent {names : List String} {h : σ} : LooksUp model none names h [] none h
  /-- A name is looked up on an object, and the further ones on what it gives. -/
  | member {object : ω} {name : String} {names : List String} {h h₁ h₂ : σ}
      {found last : Option ω} {calls : List (ModelCall ω)} :
      model.member object name h = (found, h₁) → LooksUp model found names h₁ calls last h₂ →
      LooksUp model (some object) (name :: names) h (.member object name found :: calls) last h₂

/-- The number at the end of a path, for which an object is asked; what is absent is zero. -/
inductive Numbers (model : ObjectModel ω σ) :
    Option ω → σ → List (ModelCall ω) → Float → σ → Prop where
  /-- An object is asked for its number. -/
  | object {object : ω} {h h₁ : σ} {x : Float} : model.number object h = (x, h₁) →
      Numbers model (some object) h [.number object x] x h₁
  /-- Nothing is asked for. -/
  | absent {h : σ} : Numbers model none h [] 0.0 h

/-- **The calls up to the end of a path**, and what they arrive at. -/
inductive Arrives (env : Env ω σ) (start : PathStart) (names : List String) (h : σ) :
    List (ModelCall ω) → Option ω → σ → Prop where
  /-- The start, and the members behind it. -/
  | mk {calls calls' : List (ModelCall ω)} {target last : Option ω} {h₁ h₂ : σ} :
      Starts env start h calls target h₁ → LooksUp env.model target names h₁ calls' last h₂ →
      Arrives env start names h (calls ++ calls') last h₂

/-- **The calls for a path**, and the number that it stands for. -/
inductive Resolves (env : Env ω σ) (start : PathStart) (names : List String) (h : σ) :
    List (ModelCall ω) → Float → σ → Prop where
  /-- The end of the path, and its number. -/
  | mk {calls calls' : List (ModelCall ω)} {last : Option ω} {x : Float} {h₁ h₂ : σ} :
      Arrives env start names h calls last h₁ → Numbers env.model last h₁ calls' x h₂ →
      Resolves env start names h (calls ++ calls') x h₂

/-- Names are looked up one after the other. -/
lemma LooksUp.append {model : ObjectModel ω σ} {target mid last : Option ω}
    {names names' : List String} {h h₁ h₂ : σ} {calls calls' : List (ModelCall ω)}
    (hfirst : LooksUp model target names h calls mid h₁)
    (hsecond : LooksUp model mid names' h₁ calls' last h₂) :
    LooksUp model target (names ++ names') h (calls ++ calls') last h₂ := by
  induction hfirst with
  | found => exact hsecond
  | absent =>
    cases hsecond with
    | absent => exact .absent
  | member hmember _ ih => exact .member hmember (ih hsecond)

/-! ## Texts of names -/

/-- The text of names with a point behind each. -/
def dotted (names : List (List Char)) : List Char :=
  names.flatMap fun name => name ++ ['.']

/-- A path is names with a point behind each, and a last name. -/
lemma pathText_append_singleton (names : List (List Char)) (last : List Char) :
    pathText (names ++ [last]) = dotted names ++ last := by
  induction names with
  | nil => simp [dotted]
  | cons name names ih =>
    obtain ⟨next, tail, hnext⟩ : ∃ next tail, names ++ [last] = next :: tail :=
      List.exists_cons_of_ne_nil (by simp)
    rw [List.cons_append, hnext, pathText_cons_cons, ← hnext, ih]
    simp [dotted]

/-- There are no more names than characters. -/
lemma length_le_dotted (names : List (List Char)) : names.length ≤ (dotted names).length := by
  induction names with
  | nil => exact Nat.le_refl _
  | cons name names ih =>
    simp only [dotted, List.flatMap_cons, List.length_append, List.length_cons] at ih ⊢
    omega

/-- **The text of a path**, from its mark on. -/
def PathStart.path (start : PathStart) (names : List (List Char)) : List Char :=
  '$' :: (start.text ++ '.' :: pathText names)

/-- The text of a path up to a point behind its last name. -/
def PathStart.front (start : PathStart) (names : List (List Char)) : List Char :=
  '$' :: (start.text ++ '.' :: dotted names)

/-! ## Names on a machine -/

/-- **The state of a machine in front of a text**, with a trace of the calls made so far. -/
abbrev Running.tracing (p : Nat) (rest : List Char) (d : Nat) (scratch : List Char) (nesting : Nat)
    (calls : List (ModelCall ω)) (h : σ) : Running (Registers (Traced ω σ)) :=
  .facing p rest d ⟨scratch, nesting, ⟨calls, h⟩⟩

namespace Machine

variable (env : Env ω σ) (d n : Nat)

/-- The register of the name is wiped on the spot. -/
lemma clear_tracing (p : Nat) (rest scratch : List Char) (calls : List (ModelCall ω)) (h : σ) :
    clear (.tracing p rest d scratch n calls h) = .ok () (.tracing p rest d [] n calls h) := rfl

/-- Characters are gathered on the spot. -/
lemma gather_tracing (cs : List Char) (p : Nat) (rest scratch : List Char)
    (calls : List (ModelCall ω)) (h : σ) :
    gather cs (.tracing p rest d scratch n calls h) =
      .ok () (.tracing p rest d (scratch ++ cs) n calls h) := rfl

/-- **A name is gathered and looked up**, and a point behind it decides whether the path goes on. -/
lemma memberPath_name {name rest : List Char} (hname : IsName name)
    (hrest : ∀ c ∈ rest.head?, Text.isWordChar c = false) (rounds : Nat) (target : Option ω)
    (p : Nat) (scratch : List Char) (calls : List (ModelCall ω)) (h : σ) :
    memberPath env.traced.onRegisters (rounds + 1) target
        (.tracing p (name ++ rest) d scratch n calls h) =
      (memberOf env.traced.onRegisters.model (.ofList name) target >>= fun found =>
        accept '.' >>= fun dotted =>
          if dotted then memberPath env.traced.onRegisters rounds found
          else numberOf env.traced.onRegisters found)
        (.tracing (p + name.length) rest d name n calls h) := by
  rw [memberPath_succ, bind_of_ok (clear_tracing d n _ _ _ _ _),
    bind_of_ok (takeRun_facing hname.2 hrest _ _ _), bind_of_ok (gather_tracing d n _ _ _ _ _ _),
    if_neg hname.1]
  rfl

/-- A name that is missing is an error. -/
lemma memberPath_missing {rest : List Char}
    (hrest : ∀ c ∈ rest.head?, Text.isWordChar c = false) (rounds : Nat) (target : Option ω)
    (p : Nat) (scratch : List Char) (calls : List (ModelCall ω)) (h : σ) :
    memberPath env.traced.onRegisters (rounds + 1) target
        (.tracing p rest d scratch n calls h) =
      .error (.malformed p .missingMember) (.tracing p rest d [] n calls h) := by
  have hnil : ∀ c ∈ ([] : List Char), Text.isWordChar c = true := List.forall_mem_nil _
  have hrun := takeRun_facing hnil hrest p d (⟨[], n, ⟨calls, h⟩⟩ : Registers (Traced ω σ))
  rw [List.nil_append] at hrun
  rw [memberPath_succ, bind_of_ok (clear_tracing d n _ _ _ _ _), bind_of_ok hrun]
  rfl

/-- What is looked up in one step, on an object or on what is absent. -/
lemma exists_memberOf (name : String) (target : Option ω) (p : Nat) (rest scratch : List Char)
    (calls : List (ModelCall ω)) (h : σ) :
    ∃ calls' found h₁, memberOf env.traced.onRegisters.model name target
        (.tracing p rest d scratch n calls h) =
          .ok found (.tracing p rest d scratch n (calls ++ calls') h₁) ∧
      ∀ names calls'' last h₂, LooksUp env.model found names h₁ calls'' last h₂ →
        LooksUp env.model target (name :: names) h (calls' ++ calls'') last h₂ := by
  cases target with
  | none =>
    refine ⟨[], none, h, ?_, fun names calls'' last h₂ hlook => ?_⟩
    · rw [List.append_nil]
      rfl
    · cases hlook with
      | absent => exact .absent
  | some object =>
    exact ⟨[.member object name (env.model.member object name h).1], _, _, rfl,
      fun names calls'' last h₂ hlook => .member rfl hlook⟩

/-- **Names with points behind them are looked up one by one**, as far as they are found, and the
path goes on behind them.

**Proof sketch.** Induction on the names. Each is looked up on what the one before it has given, or
not at all if that is absent; a point follows, so the path goes on with what it gives. -/
lemma memberPath_dotted {names : List (List Char)} (hnames : ∀ name ∈ names, IsName name)
    (behind : List Char) (rounds : Nat) (target : Option ω) (p : Nat) (scratch : List Char)
    (calls : List (ModelCall ω)) (h : σ) :
    ∃ calls' last h₁ scratch', LooksUp env.model target (names.map String.ofList) h calls' last h₁ ∧
      memberPath env.traced.onRegisters (names.length + rounds) target
          (.tracing p (dotted names ++ behind) d scratch n calls h) =
        memberPath env.traced.onRegisters rounds last
          (.tracing (p + (dotted names).length) behind d scratch' n (calls ++ calls') h₁) := by
  induction names generalizing target p scratch calls h with
  | nil =>
    refine ⟨[], target, h, scratch, ?_, ?_⟩
    · cases target with
      | none => exact .absent
      | some object => exact .found
    · simp [dotted]
  | cons name names ih =>
    have hpoint : ∀ c ∈ ('.' :: (dotted names ++ behind)).head?, Text.isWordChar c = false := by
      rintro _ ⟨⟩
      decide
    obtain ⟨calls₁, found, h₁, hrun, hstep⟩ := exists_memberOf env d n (.ofList name) target
      (p + name.length) ('.' :: (dotted names ++ behind)) name calls h
    obtain ⟨calls₂, last, h₂, scratch', hlook, hpath⟩ :=
      ih (fun m hm => hnames m (List.mem_cons_of_mem _ hm)) found (p + name.length + 1) name
        (calls ++ calls₁) h₁
    refine ⟨calls₁ ++ calls₂, last, h₂, scratch', hstep _ _ _ _ hlook, ?_⟩
    have htext : dotted (name :: names) ++ behind = name ++ '.' :: (dotted names ++ behind) := by
      simp [dotted]
    have hlength : p + (dotted (name :: names)).length =
        p + name.length + 1 + (dotted names).length := by
      simp only [dotted, List.flatMap_cons, List.length_append, List.length_cons, List.length_nil]
      omega
    rw [htext, hlength, List.length_cons, Nat.succ_add,
      memberPath_name env d n (hnames name List.mem_cons_self) hpoint, bind_of_ok hrun,
      bind_of_ok (accept_cons _ _ _ _ _), if_pos rfl, hpath, List.append_assoc]

/-- The number at the end of a path is asked for at most once. -/
lemma exists_numberOf (last : Option ω) (p : Nat) (rest scratch : List Char)
    (calls : List (ModelCall ω)) (h : σ) :
    ∃ calls' x h₁, Numbers env.model last h calls' x h₁ ∧
      numberOf env.traced.onRegisters last (.tracing p rest d scratch n calls h) =
        .ok x (.tracing p rest d scratch n (calls ++ calls') h₁) := by
  cases last with
  | none =>
    refine ⟨[], 0.0, h, .absent, ?_⟩
    rw [List.append_nil]
    rfl
  | some object => exact ⟨[.number object _], _, _, .object rfl, rfl⟩

/-- **A path is read up to its last name**, which may be missing: the names before it have been
looked up, and there is a round left for it. -/
lemma path_dotted {names : List (List Char)} (hnames : ∀ name ∈ names, IsName name)
    (behind : List Char) (target : Option ω) (p : Nat) (scratch : List Char)
    (calls : List (ModelCall ω)) (h : σ) :
    ∃ calls' last h₁ scratch' rounds,
      LooksUp env.model target (names.map String.ofList) h calls' last h₁ ∧
      path env.traced.onRegisters target
          (.tracing p (dotted names ++ behind) d scratch n calls h) =
        memberPath env.traced.onRegisters (rounds + 1) last
          (.tracing (p + (dotted names).length) behind d scratch' n (calls ++ calls') h₁) := by
  obtain ⟨rounds, hrounds⟩ : ∃ rounds,
      (dotted names ++ behind).length + 1 = names.length + (rounds + 1) := by
    have hle := length_le_dotted names
    refine ⟨(dotted names ++ behind).length - names.length, ?_⟩
    rw [List.length_append]
    omega
  obtain ⟨calls', last, h₁, scratch', hlook, hrun⟩ :=
    memberPath_dotted env d n hnames behind (rounds + 1) target p scratch calls h
  refine ⟨calls', last, h₁, scratch', rounds, hlook, ?_⟩
  rw [← hrun, ← hrounds]
  rfl

/-- **A path is resolved** where neither a character of a name nor a point follows. -/
lemma path_resolved {names : List (List Char)} (hnames : IsPath names) {rest : List Char}
    (hrest : ∀ c ∈ rest.head?, Text.isWordChar c = false ∧ c ≠ '.') (target : Option ω) (p : Nat)
    (scratch : List Char) (calls : List (ModelCall ω)) (h : σ) :
    ∃ calls₁ last h₁ calls₂ x h₂ scratch',
      LooksUp env.model target (names.map String.ofList) h calls₁ last h₁ ∧
      Numbers env.model last h₁ calls₂ x h₂ ∧
      path env.traced.onRegisters target (.tracing p (pathText names ++ rest) d scratch n calls h) =
        .ok x (.tracing (p + (pathText names).length) rest d scratch' n
          (calls ++ (calls₁ ++ calls₂)) h₂) := by
  obtain ⟨front, name, rfl⟩ : ∃ front name, names = front ++ [name] :=
    ⟨_, _, (List.dropLast_concat_getLast hnames.1).symm⟩
  have hfront : ∀ m ∈ front, IsName m := fun m hm => hnames.2 m (List.mem_append_left _ hm)
  have hname : IsName name := hnames.2 name (List.mem_append_right _ List.mem_cons_self)
  obtain ⟨calls₁, mid, h₁, scratch₁, rounds, hlook, hpath⟩ :=
    path_dotted env d n hfront (name ++ rest) target p scratch calls h
  obtain ⟨calls₂, last, h₂, hmember, hstep⟩ := exists_memberOf env d n (.ofList name) mid
    (p + (dotted front).length + name.length) rest name (calls ++ calls₁) h₁
  obtain ⟨calls₃, x, h₃, hnumbers, hnumber⟩ := exists_numberOf env d n last
    (p + (dotted front).length + name.length) rest name (calls ++ calls₁ ++ calls₂) h₂
  have hlast : LooksUp env.model mid [String.ofList name] h₁ (calls₂ ++ []) last h₂ := by
    refine hstep [] [] last h₂ ?_
    cases last with
    | none => exact .absent
    | some object => exact .found
  refine ⟨calls₁ ++ calls₂, last, h₂, calls₃, x, h₃, name, ?_, hnumbers, ?_⟩
  · rw [List.append_nil] at hlast
    rw [List.map_append]
    exact hlook.append hlast
  · have hlength : p + (pathText (front ++ [name])).length =
        p + (dotted front).length + name.length := by
      rw [pathText_append_singleton, List.length_append, Nat.add_assoc]
    have hpoint : ∀ c ∈ rest.head?, c ≠ '.' := fun c hc => (hrest c hc).2
    rw [hlength, pathText_append_singleton, List.append_assoc, hpath,
      memberPath_name env d n hname (fun c hc => (hrest c hc).1), bind_of_ok hmember,
      bind_of_ok (accept_of_head hpoint _ _ _), if_neg Bool.false_ne_true, hnumber]
    simp only [List.append_assoc]

/-- **A path in which a name is missing** is an error where it is missing, whatever has been found
before. -/
lemma path_missing {names : List (List Char)} (hnames : ∀ name ∈ names, IsName name)
    {rest : List Char} (hrest : ∀ c ∈ rest.head?, Text.isWordChar c = false) (target : Option ω)
    (p : Nat) (scratch : List Char) (calls : List (ModelCall ω)) (h : σ) :
    ∃ calls' last h₁, LooksUp env.model target (names.map String.ofList) h calls' last h₁ ∧
      path env.traced.onRegisters target (.tracing p (dotted names ++ rest) d scratch n calls h) =
        .error (.malformed (p + (dotted names).length) .missingMember)
          (.tracing (p + (dotted names).length) rest d [] n (calls ++ calls') h₁) := by
  obtain ⟨calls', last, h₁, scratch', rounds, hlook, hpath⟩ :=
    path_dotted env d n hnames rest target p scratch calls h
  exact ⟨calls', last, h₁, hlook, hpath.trans (memberPath_missing env d n hrest _ _ _ _ _ _)⟩

/-! ## References on a machine -/

/-- A mark starts a reference. -/
lemma operand_mark (env : Env ω (Registers σ)) (levels p : Nat) (cs : List Char) (d : Nat)
    (r : Registers σ) :
    operand env levels (.facing p ('$' :: cs) d r) = reference env (.facing (p + 1) cs d r) := by
  have hskip : (skipBlanks : Scanner (Registers σ) Unit) (.facing p ('$' :: cs) d r) =
      .ok () (.facing p ('$' :: cs) d r) := by
    have hhead : ∀ c ∈ ('$' :: cs).head?, Text.isBlank c = false := by
      rintro _ ⟨⟩
      decide
    exact congrArg (EStateM.Result.ok ()) (Running.settle_facing_of_head hhead p d r)
  cases levels <;> exact bind_of_ok hskip _

/-- **A path behind a mark** starts from the context, or from a component that is asked for. -/
lemma operand_start {start : PathStart} (hstart : start.WellFormed) (levels p : Nat)
    (cs scratch : List Char) (calls : List (ModelCall ω)) (h : σ) :
    ∃ calls' target h₁ scratch', Starts env start h calls' target h₁ ∧
      operand env.traced.onRegisters levels
          (.tracing p ('$' :: (start.text ++ '.' :: cs)) d scratch n calls h) =
        path env.traced.onRegisters target
          (.tracing (p + start.text.length + 2) cs d scratch' n (calls ++ calls') h₁) := by
  cases start with
  | context =>
    refine ⟨[], some env.context, h, scratch, .context, ?_⟩
    rw [List.append_nil]
    exact operand_mark env.traced.onRegisters levels p ('.' :: cs) d ⟨scratch, n, ⟨calls, h⟩⟩
  | component typeName =>
    have hname : ∀ c ∈ typeName, decide (c ≠ ')') = true := by
      intro c hc
      exact decide_eq_true fun heq => hstart (heq ▸ hc)
    have hclose : ∀ c ∈ (')' :: '.' :: cs).head?, decide (c ≠ ')') = false := by
      rintro _ ⟨⟩
      decide
    have htext : (PathStart.component typeName).text ++ '.' :: cs =
        '(' :: (typeName ++ ')' :: '.' :: cs) := by simp [PathStart.text]
    have hlength : p + (PathStart.component typeName).text.length + 2 =
        p + 1 + 1 + typeName.length + 1 + 1 := by
      simp only [PathStart.text, List.cons_append, List.length_cons, List.length_append,
        List.length_nil]
      omega
    refine ⟨_, _, _, typeName, .component rfl, ?_⟩
    rw [htext, hlength, operand_mark]
    show componentPath env.traced.onRegisters
      (.tracing (p + 1 + 1) (typeName ++ ')' :: '.' :: cs) d scratch n calls h) = _
    rw [componentPath_eq, bind_of_ok (clear_tracing d n _ _ _ _ _),
      bind_of_ok (takeRun_facing hname hclose _ _ _), bind_of_ok (gather_tracing d n _ _ _ _ _ _),
      bind_of_ok (accept_cons _ _ _ _ _), if_pos rfl, bind_of_ok (accept_cons _ _ _ _ _),
      if_pos rfl]
    rfl

/-! ## Paths as operands -/

/-- A path is resolved as an operand where neither a character of a name nor a point follows. -/
lemma operand_resolved {start : PathStart} (hstart : start.WellFormed) {names : List (List Char)}
    (hnames : IsPath names) {rest : List Char}
    (hrest : ∀ c ∈ rest.head?, Text.isWordChar c = false ∧ c ≠ '.') (levels p : Nat)
    (scratch : List Char) (calls : List (ModelCall ω)) (h : σ) :
    ∃ calls' x h' scratch', Resolves env start (names.map String.ofList) h calls' x h' ∧
      operand env.traced.onRegisters levels
          (.tracing p (start.path names ++ rest) d scratch n calls h) =
        .ok x
          (.tracing (p + (start.path names).length) rest d scratch' n (calls ++ calls') h') := by
  obtain ⟨calls₁, target, h₁, scratch₁, hstarts, hoperand⟩ :=
    operand_start env d n hstart levels p (pathText names ++ rest) scratch calls h
  obtain ⟨calls₂, last, h₂, calls₃, x, h₃, scratch₂, hlook, hnumbers, hpath⟩ :=
    path_resolved env d n hnames hrest target (p + start.text.length + 2) scratch₁
      (calls ++ calls₁) h₁
  refine ⟨calls₁ ++ calls₂ ++ calls₃, x, h₃, scratch₂, .mk (.mk hstarts hlook) hnumbers, ?_⟩
  have htext : start.path names ++ rest =
      '$' :: (start.text ++ '.' :: (pathText names ++ rest)) := by
    simp [PathStart.path]
  have hlength : p + (start.path names).length =
      p + start.text.length + 2 + (pathText names).length := by
    simp only [PathStart.path, List.length_cons, List.length_append]
    omega
  rw [htext, hlength, hoperand, hpath]
  simp only [List.append_assoc]

/-- A path in which a name is missing is an error as an operand. -/
lemma operand_missing {start : PathStart} (hstart : start.WellFormed) {names : List (List Char)}
    (hnames : ∀ name ∈ names, IsName name) {rest : List Char}
    (hrest : ∀ c ∈ rest.head?, Text.isWordChar c = false) (levels p : Nat) (scratch : List Char)
    (calls : List (ModelCall ω)) (h : σ) :
    ∃ calls' last h', Arrives env start (names.map String.ofList) h calls' last h' ∧
      operand env.traced.onRegisters levels
          (.tracing p (start.front names ++ rest) d scratch n calls h) =
        .error (.malformed (p + (start.front names).length) .missingMember)
          (.tracing (p + (start.front names).length) rest d [] n (calls ++ calls') h') := by
  obtain ⟨calls₁, target, h₁, scratch₁, hstarts, hoperand⟩ :=
    operand_start env d n hstart levels p (dotted names ++ rest) scratch calls h
  obtain ⟨calls₂, last, h₂, hlook, hpath⟩ :=
    path_missing env d n hnames hrest target (p + start.text.length + 2) scratch₁
      (calls ++ calls₁) h₁
  refine ⟨calls₁ ++ calls₂, last, h₂, .mk hstarts hlook, ?_⟩
  have htext : start.front names ++ rest =
      '$' :: (start.text ++ '.' :: (dotted names ++ rest)) := by
    simp [PathStart.front]
  have hlength : p + (start.front names).length =
      p + start.text.length + 2 + (dotted names).length := by
    simp only [PathStart.front, List.length_cons, List.length_append]
    omega
  rw [htext, hlength, hoperand, hpath, List.append_assoc]

/-! ## Paths as whole texts -/

/-- A machine starts on a text with nothing left in its registers. -/
lemma start_recycle (m : Machine) (text : List Char) (host : σ) :
    m.recycle.start (.ofList text) host = .facing 0 text 0 ⟨[], 0, host⟩ := by
  simp only [start, Evaluator.load, String.toList_ofList]
  rfl

section

variable {env : Env ω σ} {text : List Char} {host : σ}

/-- A text that is read as one operand comes to its value. -/
lemma eval_of_operand {x : Float} {q : Nat} {r : Registers σ}
    (hrun : operand env.onRegisters env.maxDepth (.facing 0 text 0 ⟨[], 0, host⟩) =
      .ok x (.facing q [] 0 r)) (m : Machine) :
    m.eval env (.ofList text) host = (.ok x, blank, r.host) := by
  have hchain : chain (operand env.onRegisters env.maxDepth) .whole
      (.facing 0 text 0 ⟨[], 0, host⟩) = .ok (x, .text) (.facing q [] 0 r) := bind_of_ok hrun _
  have hformula : formula env.onRegisters (.facing 0 text 0 ⟨[], 0, host⟩) =
      .ok x (.facing q [] 0 r) := bind_of_ok hchain _
  rw [eval, start_recycle, hformula]
  rfl

/-- A text whose first operand is an error comes to that error. -/
lemma eval_of_operand_error {e : EvalError} {s : Running (Registers σ)}
    (hrun : operand env.onRegisters env.maxDepth (.facing 0 text 0 ⟨[], 0, host⟩) = .error e s)
    (m : Machine) : m.eval env (.ofList text) host = (.error e, blank, s.host.host) := by
  have hformula : formula env.onRegisters (.facing 0 text 0 ⟨[], 0, host⟩) = .error e s :=
    bind_of_error (bind_of_error hrun _) _
  rw [eval, start_recycle, hformula]
  rfl

end

/-- A trace changes nothing but itself. -/
lemma eval_traced (m : Machine) (env : Env ω σ) (text : String) (calls : List (ModelCall ω))
    (h : σ) :
    m.eval env text h =
      ((m.eval env.traced text ⟨calls, h⟩).1, blank,
        (m.eval env.traced text ⟨calls, h⟩).2.2.own) := by
  obtain ⟨hresult, hhost⟩ := env.alike_traced.eval Evaluator.blank text ⟨calls, h⟩ h rfl
  rw [eval_eq, eval_eq]
  exact Prod.ext hresult.symm (Prod.ext rfl hhost.symm)

end Machine

/-- **Paths are resolved with exactly these calls.** Wherever a machine reads a path as an operand,
whatever has been read and called before: where neither a character of a name nor a point follows,
all of it is read, the calls are those for the path, and the value is its number; and where a name
is missing behind a point, reading stops there, and the calls are those for the names before it,
also if nothing has been found. A text that is a path, or starts with one in which a name is
missing, comes to the same.

**Proof sketch.** The names with points behind them are looked up one by one. Behind them the last
name is looked up and the object at the end is asked for its number, or there is no further name. -/
theorem path_resolution (env : Env ω σ) {start : PathStart} (hstart : start.WellFormed)
    {names : List (List Char)} (hnames : ∀ name ∈ names, IsName name) (calls : List (ModelCall ω))
    (h : σ) :
    (∀ (levels p d n : Nat) (scratch rest : List Char), names ≠ [] →
      (∀ c ∈ rest.head?, Text.isWordChar c = false ∧ c ≠ '.') →
      ∃ calls' x h' scratch', Resolves env start (names.map String.ofList) h calls' x h' ∧
        Machine.operand env.traced.onRegisters levels
            (.tracing p (start.path names ++ rest) d scratch n calls h) =
          .ok x (.tracing (p + (start.path names).length) rest d scratch' n (calls ++ calls') h')) ∧
    (∀ (levels p d n : Nat) (scratch rest : List Char),
      (∀ c ∈ rest.head?, Text.isWordChar c = false) →
      ∃ calls' last h', Arrives env start (names.map String.ofList) h calls' last h' ∧
        Machine.operand env.traced.onRegisters levels
            (.tracing p (start.front names ++ rest) d scratch n calls h) =
          .error (.malformed (p + (start.front names).length) .missingMember)
            (.tracing (p + (start.front names).length) rest d [] n (calls ++ calls') h')) ∧
    (∀ m : Machine, names ≠ [] →
      ∃ calls' x h', Resolves env start (names.map String.ofList) h calls' x h' ∧
        m.eval env.traced (.ofList (start.path names)) ⟨calls, h⟩ =
          (.ok x, Machine.blank, ⟨calls ++ calls', h'⟩) ∧
        m.eval env (.ofList (start.path names)) h = (.ok x, Machine.blank, h')) ∧
    ∀ (m : Machine) (rest : List Char), (∀ c ∈ rest.head?, Text.isWordChar c = false) →
      ∃ calls' last h', Arrives env start (names.map String.ofList) h calls' last h' ∧
        m.eval env.traced (.ofList (start.front names ++ rest)) ⟨calls, h⟩ =
          (.error (.malformed (start.front names).length .missingMember), Machine.blank,
            ⟨calls ++ calls', h'⟩) ∧
        m.eval env (.ofList (start.front names ++ rest)) h =
          (.error (.malformed (start.front names).length .missingMember), Machine.blank, h') := by
  refine ⟨fun levels p d n scratch rest hne hrest =>
      Machine.operand_resolved env d n hstart ⟨hne, hnames⟩ hrest levels p scratch calls h,
    fun levels p d n scratch rest hrest =>
      Machine.operand_missing env d n hstart hnames hrest levels p scratch calls h,
    fun m hne => ?_, fun m rest hrest => ?_⟩
  · have hend : ∀ c ∈ ([] : List Char).head?, Text.isWordChar c = false ∧ c ≠ '.' := by simp
    obtain ⟨calls', x, h', scratch', hresolves, hrun⟩ :=
      Machine.operand_resolved env 0 0 hstart ⟨hne, hnames⟩ hend env.maxDepth 0 [] calls h
    rw [List.append_nil] at hrun
    have heval := Machine.eval_of_operand hrun m
    refine ⟨calls', x, h', hresolves, heval, ?_⟩
    rw [Machine.eval_traced m env _ calls h, heval]
  · obtain ⟨calls', last, h', harrives, hrun⟩ :=
      Machine.operand_missing env 0 0 hstart hnames hrest env.maxDepth 0 [] calls h
    rw [Nat.zero_add] at hrun
    have heval := Machine.eval_of_operand_error hrun m
    refine ⟨calls', last, h', harrives, heval, ?_⟩
    rw [Machine.eval_traced m env _ calls h, heval]

/-- On a member of a component, and on a path in which a name is missing behind one that is
absent. -/
theorem path_resolution_component :
    Machine.blank.eval (Env.traced (.ofDocument (.object [("T", .object [("a", .bool true)])]) 0))
        "$( T ).a" ⟨[], (5 : Generator)⟩ =
      (.ok 1.0, Machine.blank,
        ⟨[.component (.object [("T", .object [("a", .bool true)])]) "T"
            (some (.object [("a", .bool true)])),
          .member (.object [("a", .bool true)]) "a" (some (.bool true)),
          .number (.bool true) 1.0], 5⟩) ∧
      Machine.blank.eval (Env.traced (.ofDocument .null 0)) "$.a..b" ⟨[], (5 : Generator)⟩ =
        (.error (.malformed 4 .missingMember), Machine.blank, ⟨[.member .null "a" none], 5⟩) := by
  have hname : ∀ name ∈ [['a']], IsName name := by
    intro name hmem
    obtain rfl : name = ['a'] := by simpa using hmem
    refine ⟨by decide, fun c hc => ?_⟩
    obtain rfl : c = 'a' := by simpa using hc
    exact Text.isWordChar_of_isAlphanum (by decide)
  constructor
  · have hclose : (PathStart.component [' ', 'T', ' ']).WellFormed :=
      show ')' ∉ [' ', 'T', ' '] by decide
    obtain ⟨calls, x, h', hresolves, heval, -⟩ :=
      (path_resolution (.ofDocument (.object [("T", .object [("a", .bool true)])]) 0) hclose hname
        [] (5 : Generator)).2.2.1 .blank (by decide)
    cases hresolves with
    | mk harrives hnumbers =>
      cases harrives with
      | mk hstarts hlook =>
        cases hstarts with
        | component hcomponent =>
          obtain rfl : some (Json.object [("a", .bool true)]) = _ := (Prod.mk.inj hcomponent).1
          obtain rfl : (5 : Generator) = _ := (Prod.mk.inj hcomponent).2
          cases hlook with
          | member hmember hrest =>
            obtain rfl : some (Json.bool true) = _ := (Prod.mk.inj hmember).1
            obtain rfl : (5 : Generator) = _ := (Prod.mk.inj hmember).2
            cases hrest with
            | found =>
              cases hnumbers with
              | object hnumber =>
                obtain ⟨rfl, rfl⟩ := Prod.mk.inj hnumber
                exact heval
  · have hcontext : PathStart.context.WellFormed := trivial
    obtain ⟨calls, last, h', harrives, heval, -⟩ :=
      (path_resolution (.ofDocument .null 0) hcontext hname [] (5 : Generator)).2.2.2 .blank
        ['.', 'b'] (by rintro _ ⟨⟩; decide)
    cases harrives with
    | mk hstarts hlook =>
      cases hstarts with
      | context =>
        cases hlook with
        | member hmember hrest =>
          obtain ⟨rfl, rfl⟩ := Prod.mk.inj hmember
          cases hrest with
          | absent => exact heval

end Formula
