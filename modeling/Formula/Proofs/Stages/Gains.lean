import Formula.Proofs.Progress
import Formula.Proofs.Stages

set_option relaxedAutoImplicit false
set_option autoImplicit false

/-!
# What a machine reads

A machine moves forward only, as an evaluation without registers does. Where it reads a link or an
operand and gives a value, it has taken at least one character that is no blank. There are two
exceptions: the text may end behind an operand, and an operand may be left out in front of a closing
parenthesis, which it does not read.

## Main definitions

* `Formula.Cursor.Gains` — a place further on, with more than blanks in between.

## Main results

* `Formula.Scanner.Forward.machine_operand` — a machine moves forward when it reads an operand.
* `Formula.Scanner.gains_of_link` — a link takes a character, or the text has ended.
* `Formula.Machine.gains_of_operand` — an operand takes a character, or it is left out.
-/

namespace Formula

variable {ω σ α β : Type}

/-! ## Places behind what has been read -/

/-- **A place further on, with more than blanks in between.** -/
def Cursor.Gains (c c' : Cursor) : Prop :=
  ∃ read, c.rest = read ++ c'.rest ∧ ∃ x ∈ read, Text.isBlank x = false

namespace Cursor

variable {c c' c'' : Cursor}

/-- Less text is ahead behind what has been read. -/
lemma Gains.length_lt (h : c.Gains c') : c'.rest.length < c.rest.length := by
  obtain ⟨read, hrest, x, hx, -⟩ := h
  have hpos : 0 < read.length := List.length_pos_of_mem hx
  rw [hrest, List.length_append]
  omega

/-- What has been read stays read further on. -/
lemma Gains.reaches (h : c.Gains c') (h' : c'.Reaches c'') : c.Gains c'' := by
  obtain ⟨read, hrest, x, hx, hblank⟩ := h
  obtain ⟨further, hfurther⟩ := h'.rest
  refine ⟨read ++ further, ?_, x, List.mem_append_left _ hx, hblank⟩
  rw [hrest, ← hfurther, List.append_assoc]

/-- What is read further on counts from here as well. -/
lemma Reaches.gains (h : c.Reaches c') (h' : c'.Gains c'') : c.Gains c'' := by
  obtain ⟨before, hbefore⟩ := h.rest
  obtain ⟨read, hrest, x, hx, hblank⟩ := h'
  refine ⟨before ++ read, ?_, x, List.mem_append_right _ hx, hblank⟩
  rw [← hbefore, hrest, List.append_assoc]

/-- Moving over a character that is no blank reads it. -/
lemma Gains.of_cons {x : Char} {p : Nat} {cs : List Char} (hx : Text.isBlank x = false)
    (h : c'.rest <:+ cs) : (Cursor.mk p (x :: cs)).Gains c' := by
  obtain ⟨read, rfl⟩ := h
  exact ⟨x :: read, rfl, x, List.mem_cons_self, hx⟩

/-- What is taken in front of a place is read, if it starts with no blank. -/
lemma Gains.of_append {x : Char} {p : Nat} {cs token : List Char} (hx : Text.isBlank x = false)
    (htoken : token ≠ []) (h : x :: cs = token ++ c'.rest) : (Cursor.mk p (x :: cs)).Gains c' := by
  cases token with
  | nil => exact absurd rfl htoken
  | cons y tail =>
    obtain ⟨rfl, rfl⟩ := List.cons_eq_cons.mp h
    exact .of_cons hx (List.suffix_append _ _)

/-- No place lies behind an earlier one. -/
lemma Reaches.position_le (h : c.Reaches c') : c.position ≤ c'.position := by
  have hrest := h.rest.length_le
  have hlength := h.length
  rw [Cursor.length, Cursor.length] at hlength
  omega

/-- **A place that is reached from the start of a text** lies in that text, in front of what is
left of it. -/
lemma Reaches.of_start {text : List Char} (h : (start text).Reaches c) :
    c.position ≤ text.length ∧ c.rest = text.drop c.position := by
  have hlength : c.position + c.rest.length = text.length := h.length.trans (length_start text)
  refine ⟨by omega, ?_⟩
  have hdrop : text.drop (text.length - c.rest.length) = c.rest :=
    (List.suffix_iff_eq_drop.mp h.rest).symm
  rw [← hdrop]
  congr 1
  omega

end Cursor

/-! ## The parts of a machine move forward -/

/-- Reads what stands behind the name of a function: blanks and the parenthesis of its call. -/
def Machine.behindName : Scanner (Registers σ) String := do
  Scanner.skipBlanks
  let name := String.ofList (← gathered)
  if ← Scanner.accept '(' then
    Scanner.openParen
    return name
  else Scanner.fail (.missingOpen name)

namespace Scanner.Forward

open Machine

/-- Where a value is given, the cursor stands further on. -/
lemma reaches_of_ok {m : Scanner σ α} (hm : Forward m) {s t : Running σ} {a : α}
    (hrun : m s = .ok a t) : s.cursor.Reaches t.cursor := by
  have h := hm.reaches s
  rwa [hrun] at h

/-- What is made of a value does not move. -/
protected lemma map {m : Scanner σ α} (hm : Forward m) (f : α → β) : Forward (f <$> m) := by
  rw [map_eq_pure_bind]
  exact .bind hm fun _ => .pure _

/-- Writing to the registers moves nowhere. -/
protected lemma write (f : Registers σ → Registers σ) : Forward (write f) :=
  .onHost _

/-- Wiping the register of the name moves nowhere. -/
protected lemma clear : Forward (clear : Scanner (Registers σ) Unit) :=
  .write _

/-- Gathering characters moves nowhere. -/
protected lemma gather (cs : List Char) : Forward (gather cs : Scanner (Registers σ) Unit) :=
  .write _

section

variable (env : Env ω (Registers σ))

/-- Reading the name of a constant moves forward. -/
protected lemma machine_namedConstant : Forward (Machine.namedConstant env) := by
  rw [namedConstant_eq]
  exact .bind .clear fun _ => .bind (.accept '-') fun _ => .bind (.gather _) fun _ =>
    .bind (.takeRun _) fun _ => .bind (.gather _) fun _ => .pure _

/-- Looking up the member of an object that may be absent moves nowhere. -/
protected lemma memberOf (name : String) (target : Option ω) :
    Forward (memberOf env.model name target) := by
  cases target with
  | none => exact .pure _
  | some object => exact .onHost _

/-- Asking an object that may be absent for its number moves nowhere. -/
protected lemma numberOf (found : Option ω) : Forward (numberOf env found) := by
  cases found with
  | none => exact .pure _
  | some object => exact .onHost _

/-- Reading a path name by name moves forward. -/
protected lemma machine_memberPath (rounds : Nat) (target : Option ω) :
    Forward (Machine.memberPath env rounds target) := by
  induction rounds generalizing target with
  | zero => exact .fail _
  | succ rounds ih =>
    rw [memberPath_succ]
    refine .bind .clear fun _ => .bind (.takeRun _) fun name => .bind (.gather name) fun _ => ?_
    split_ifs
    · exact .fail _
    · refine .bind (.memberOf env _ target) fun found => .bind (.accept '.') fun more => ?_
      split_ifs
      · exact ih found
      · exact .numberOf env found

/-- Reading a path moves forward. -/
protected lemma machine_path (target : Option ω) : Forward (Machine.path env target) :=
  .bind .cursor fun _ => .machine_memberPath env _ target

/-- Reading the path of a component moves forward. -/
protected lemma machine_componentPath : Forward (Machine.componentPath env) := by
  rw [Machine.componentPath_eq]
  refine .bind .clear fun _ => .bind (.takeRun _) fun typeName => .bind (.gather typeName) fun _ =>
    .bind (.accept ')') fun closed => ?_
  split_ifs
  · refine .bind (.accept '.') fun dotted => ?_
    split_ifs
    · exact .bind (.onHost _) fun found => .machine_path env found
    · exact .fail _
  · exact .fail _

/-- **Reading a reference moves forward**, with the registers of a machine. -/
protected lemma machine_reference : Forward (Machine.reference env) := by
  refine .bind .current fun c => ?_
  cases c with
  | none => exact .onHost _
  | some c =>
    refine .bind .next fun next => ?_
    split_ifs
    · exact .machine_namedConstant env
    · exact .onHost _
    · exact .bind .advance fun _ => .machine_path env _
    · exact .bind .advance fun _ => .machine_componentPath env
    · exact .machine_namedConstant env
    · exact .fail _

end

/-- Reading what stands behind the name of a function moves forward. -/
protected lemma behindName : Forward (behindName : Scanner (Registers σ) String) := by
  refine .bind .skipBlanks fun _ => .bind (.onHost _) fun name => .bind (.accept '(') fun b => ?_
  split_ifs
  · exact .bind .openParen fun _ => .pure _
  · exact .fail _

/-- Reading the name of a function moves forward. -/
protected lemma callName : Forward (callName : Scanner (Registers σ) String) :=
  .bind .clear fun _ => .bind (.takeRun _) fun _ => .bind (.gather _) fun _ => .behindName

/-- **Reading the start of an operand moves forward.** -/
protected lemma opening (env : Env ω (Registers σ)) : Forward (opening env) := by
  refine .bind .skipBlanks fun _ => .bind .current fun c => ?_
  cases c with
  | none => exact .fail _
  | some c =>
    dsimp only
    split_ifs
    · exact .bind .number fun _ => .pure _
    · exact .bind .callName fun _ => .pure _
    · exact .bind .advance fun _ => .bind (.machine_reference env) fun _ => .pure _
    · exact .bind .advance fun _ => .bind .openParen fun _ => .pure _
    · exact .bind .advance fun _ => .pure _
    · exact .bind .advance fun _ => .pure _
    · exact .pure _
    · exact .fail _

/-- **Reading a link moves forward.** -/
protected lemma link (scope : Scope) : Forward (link scope : Scanner σ Link) := by
  refine .bind .skipBlanks fun _ => .bind .current fun c => ?_
  cases c with
  | none =>
    simp only [linkAt]
    split_ifs
    · exact .pure _
    · exact .fail _
  | some c =>
    simp only [linkAt]
    split_ifs
    · exact .bind .closeParen fun _ => .pure _
    · exact .bind .advance fun _ => .pure _
    · exact .bind (.operator c) fun _ => .pure _

/-! ### Levels -/

/-- Counting a level moves nowhere: what is read on it moves as it does without the count. -/
protected lemma counted {m : Scanner (Registers σ) α} (hm : Forward m) :
    Forward (Machine.counted m) where
  reaches s := by
    have hbelow := hm.reaches (deeper s)
    unfold Machine.counted
    generalize hrun : m _ = r
    change m (deeper s) = r at hrun
    rw [hrun] at hbelow
    cases r <;> exact hbelow
  standsAt {s t e} hrun := by
    unfold Machine.counted at hrun
    generalize hbelow : m _ = r at hrun
    cases r with
    | ok a u => cases hrun
    | error e' u =>
      cases hrun
      have hstands : e.StandsAt u.cursor.position := hm.standsAt hbelow
      exact hstands

section

variable (env : Env ω (Registers σ)) {inner : Option (Scanner (Registers σ) Float)}
  (hinner : ∀ one ∈ inner, Forward one)

include hinner

/-- What is nested moves forward if it does so with an operand that does. -/
protected lemma machine_nested {body : Scanner (Registers σ) Float → Scanner (Registers σ) α}
    (hbody : ∀ one, Forward one → Forward (body one)) :
    Forward (Machine.nested env inner body) := by
  have hdeep : Forward (throw (.tooDeep env.maxDepth) : Scanner (Registers σ) α) :=
    .throw fun _ _ h => by cases h
  refine .bind (.onHost _) fun levels => ?_
  split_ifs
  · exact hdeep
  · cases inner with
    | none => exact hdeep
    | some one => exact .counted (hbody one (hinner one rfl))

/-- What stands behind the start of an operand moves forward. -/
protected lemma behind (start : Opening) : Forward (behind env inner start) := by
  cases start with
  | value x => exact .pure x
  | sign negative => exact .bind (.machine_nested env hinner fun _ hone => hone) fun _ => .pure _
  | group =>
    exact .bind (.machine_nested env hinner fun _ hone => hone.chain .group) fun _ => .pure _
  | call name =>
    simp only [behind]
    cases Builtin.named? name with
    | none => exact .throw fun _ _ h => by cases h
    | some f =>
      exact .bind (.machine_nested env hinner fun _ hone => hone.arguments f) fun args =>
        .invoke env f args

/-- Operands move forward if those of the level below do. -/
protected lemma machine_operandWith : Forward (Machine.operandWith env inner) := by
  rw [operandWith_eq_opening]
  exact .bind (.opening env) (.behind env hinner)

end

/-- **A machine moves forward** when it reads an operand, on all levels. -/
theorem machine_operand (env : Env ω (Registers σ)) (levels : Nat) :
    Forward (Machine.operand env levels) := by
  induction levels with
  | zero => exact .machine_operandWith env fun _ h => by cases h
  | succ levels ih =>
    refine .machine_operandWith env fun one h => ?_
    obtain rfl : Machine.operand env levels = one := Option.some.inj h
    exact ih

end Scanner.Forward

/-! ## What is read with a value -/

/-- **A link takes a character**, unless it ends the whole text where nothing is left of it. -/
lemma Scanner.gains_of_link {scope : Scope} {found : Link} {s t : Running σ}
    (hrun : link scope s = .ok found t) :
    s.cursor.Gains t.cursor ∨
      found = .ended .text ∧ scope = .whole ∧ s.settle.cursor.current = none := by
  obtain ⟨p, w, cs, -, -, hhead, hsettle⟩ := s.exists_settle
  have hreaches : s.cursor.Reaches ⟨p, cs⟩ := by
    have h : s.cursor.Reaches s.settle.cursor := .skipWhile Text.isBlank s.cursor
    rwa [hsettle] at h
  rw [link_apply, hsettle] at hrun
  rw [hsettle]
  cases cs with
  | nil =>
    simp only [Cursor.current, List.head?_nil, linkAt] at hrun
    split_ifs at hrun with hscope <;> cases hrun
    exact .inr ⟨rfl, hscope, rfl⟩
  | cons c cs =>
    refine .inl (hreaches.gains ?_)
    have hc : Text.isBlank c = false := hhead c rfl
    simp only [Cursor.current, List.head?_cons, linkAt] at hrun
    split_ifs at hrun with hclose hcomma
    · obtain ⟨⟨⟩, u, hparen, hrun⟩ := bind_eq_ok.mp hrun
      rw [closeParen_apply] at hparen
      split_ifs at hparen with hdepth
      cases hparen
      cases hrun
      exact .of_cons hc List.suffix_rfl
    · cases hrun
      exact .of_cons hc List.suffix_rfl
    · obtain ⟨op, u, hop, hrun⟩ := bind_eq_ok.mp hrun
      cases hrun
      obtain ⟨token, hmem, htoken, -, -⟩ := spelling_of_operator hop
      obtain ⟨x, tail, rfl, -⟩ := Operator.head_of_mem_spellings hmem
      exact .of_append hc (List.cons_ne_nil x tail) htoken

namespace Machine

/-- A literal takes the digit that it starts with. -/
lemma gains_of_number {c : Char} (hc : c.isDigit = true) {p d : Nat} {cs : List Char}
    {r : Registers σ} {x : Float} {t : Running (Registers σ)}
    (hrun : Scanner.number (.facing p (c :: cs) d r) = .ok x t) :
    (Cursor.mk p (c :: cs)).Gains t.cursor := by
  have hblank : Text.isBlank c = false :=
    Text.isBlank_of_isAlphanum (by rw [Char.isAlphanum, hc, Bool.or_true])
  obtain ⟨whole, fraction, hwell, htext, -⟩ := Scanner.text_of_number hc hrun
  refine .of_append hblank (fun hnil => hwell.1 ?_) htext
  cases fraction with
  | none => exact hnil
  | some fraction => cases List.append_eq_nil_iff.mp hnil |>.2

/-- The start of a call takes the letter that it starts with. -/
lemma gains_of_callName {c : Char} (hc : c.isAlpha = true) {p d : Nat} {cs : List Char}
    {r : Registers σ} {name : String} {t : Running (Registers σ)}
    (hrun : callName (.facing p (c :: cs) d r) = .ok name t) :
    (Cursor.mk p (c :: cs)).Gains t.cursor := by
  have halphanum : c.isAlphanum = true := by rw [Char.isAlphanum, hc, Bool.true_or]
  -- what is read behind the name starts behind its first letter
  have hbehind : behindName (Running.facing
      (p + ((c :: cs).takeWhile Char.isAlphanum).length) ((c :: cs).dropWhile Char.isAlphanum) d
      { r with scratch := [] ++ Text.lower ((c :: cs).takeWhile Char.isAlphanum) }) =
        .ok name t := hrun
  have hrest : t.cursor.rest <:+ cs.dropWhile Char.isAlphanum := by
    have h := (Scanner.Forward.behindName.reaches_of_ok hbehind).rest
    rwa [List.dropWhile_cons, if_pos halphanum] at h
  exact .of_cons (Text.isBlank_of_isAlphanum halphanum) (hrest.trans (List.dropWhile_suffix _))

section

variable {env : Env ω (Registers σ)} {s t : Running (Registers σ)}

/-- **The start of an operand takes a character that is no blank**, unless the operand is left out
in front of a closing parenthesis. -/
lemma gains_of_opening {start : Opening} (hrun : opening env s = .ok start t) :
    s.cursor.Gains t.cursor ∨
      start = .value 0.0 ∧ t = s.settle ∧ s.settle.cursor.current = some ')' := by
  obtain ⟨p, w, cs, -, -, hhead, hsettle⟩ := s.exists_settle
  have hreaches : s.cursor.Reaches ⟨p, cs⟩ := by
    have h : s.cursor.Reaches s.settle.cursor := .skipWhile Text.isBlank s.cursor
    rwa [hsettle] at h
  obtain ⟨⟨⟩, u, hskip, hrun⟩ := Scanner.bind_eq_ok.mp hrun
  obtain rfl : s.settle = u := (EStateM.Result.ok.inj hskip).2
  obtain ⟨ahead, v, hcurrent, hrun⟩ := Scanner.bind_eq_ok.mp hrun
  obtain ⟨rfl, rfl⟩ := EStateM.Result.ok.inj hcurrent
  rw [hsettle] at hrun ⊢
  cases cs with
  | nil => cases hrun
  | cons c cs =>
    have hc : Text.isBlank c = false := hhead c rfl
    -- behind a character that is moved over something else is read
    have hmoved : ∀ {v : Running (Registers σ)},
        (Cursor.mk (p + 1) cs).Reaches v.cursor → s.cursor.Gains v.cursor :=
      fun h => hreaches.gains (.of_cons hc h.rest)
    simp only [Cursor.current, List.head?_cons] at hrun
    split_ifs at hrun with hdigit halpha hmark hopen hplus hminus hclose
    · obtain ⟨x, u, hnumber, hrun⟩ := Scanner.bind_eq_ok.mp hrun
      cases hrun
      exact .inl (hreaches.gains (gains_of_number hdigit hnumber))
    · obtain ⟨name, u, hname, hrun⟩ := Scanner.bind_eq_ok.mp hrun
      cases hrun
      exact .inl (hreaches.gains (gains_of_callName halpha hname))
    · obtain ⟨⟨⟩, u, hadvance, hrun⟩ := Scanner.bind_eq_ok.mp hrun
      cases hadvance
      obtain ⟨x, v, hreference, hrun⟩ := Scanner.bind_eq_ok.mp hrun
      cases hrun
      exact .inl (hmoved ((Scanner.Forward.machine_reference env).reaches_of_ok hreference))
    · cases hrun
      exact .inl (hmoved (.refl _))
    · cases hrun
      exact .inl (hmoved (.refl _))
    · cases hrun
      exact .inl (hmoved (.refl _))
    · cases hrun
      exact .inr ⟨rfl, rfl, congrArg some hclose⟩
    · cases hrun

/-- **An operand that gives a value takes a character that is no blank**, or it is left out: then it
is zero, and behind the blanks ahead a closing parenthesis stands.

**Proof sketch.** The start of an operand does so, and what is read behind it moves forward. There
is nothing behind the start of an operand that is left out. -/
theorem gains_of_operand {levels : Nat} {x : Float} (hrun : operand env levels s = .ok x t) :
    s.cursor.Gains t.cursor ∨ x = 0.0 ∧ t = s.settle ∧ s.settle.cursor.current = some ')' := by
  obtain ⟨inner, hinner, hoperand⟩ : ∃ inner : Option (Scanner (Registers σ) Float),
      (∀ one ∈ inner, Scanner.Forward one) ∧ operand env levels = operandWith env inner := by
    cases levels with
    | zero => exact ⟨none, fun _ h => (by cases h), rfl⟩
    | succ levels =>
      refine ⟨some (operand env levels), fun one h => ?_, rfl⟩
      obtain rfl : operand env levels = one := Option.some.inj h
      exact .machine_operand env levels
  rw [hoperand, operandWith_eq_opening] at hrun
  obtain ⟨start, u, hstart, hbehind⟩ := Scanner.bind_eq_ok.mp hrun
  rcases gains_of_opening hstart with hgains | ⟨rfl, rfl, hclose⟩
  · exact .inl (hgains.reaches ((Scanner.Forward.behind env hinner start).reaches_of_ok hbehind))
  · obtain ⟨rfl, rfl⟩ := Scanner.pure_eq_ok.mp hbehind
    exact .inr ⟨rfl, rfl, hclose⟩

end

end Machine

end Formula
