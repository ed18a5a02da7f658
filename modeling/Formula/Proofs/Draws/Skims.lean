import Formula.Proofs.Draws.Begun
import Formula.Proofs.Progress

set_option relaxedAutoImplicit false
set_option autoImplicit false

/-!
# Reading without calls

Literals, constants, paths and the names of functions are read without closing a call and without
drawing a number, whether they are read to their end or an error stops them. So an error in one of
them leaves a text behind in which no call is closed.

## Main definitions

* `Formula.Scanner.Skims` — scanners that close no call and draw nothing.

## Main results

* `Formula.Scanner.fragment_of_reference` — no call is closed where a reference stops with an error.
* `Formula.Scanner.call_eq_error` — a call stops with an error before its arguments, or in them.
-/

namespace Formula

variable {ω σ α β : Type}

/-! ## Texts without closing parentheses -/

/-- No call is closed before the arguments of a call. -/
lemma Builtin.Opening.not_mem {f : Builtin} {o : List Char} (h : f.Opening o) : ')' ∉ o := by
  obtain ⟨name, w, hname, hw, rfl⟩ := h
  intro hmem
  simp only [List.mem_append, List.mem_singleton] at hmem
  rcases hmem with (hmem | hmem) | hmem
  · exact absurd (Builtin.isAlphanum_of_lower hname ')' hmem) (by decide)
  · exact absurd (hw ')' hmem) (by decide)
  · exact absurd hmem (by decide)

/-- The scan of a literal moves over no closing parenthesis. -/
lemma Literal.scanFrom_skims (inFraction : Bool) (l : Literal) (p : Nat) (cs : List Char) :
    ∃ t, ')' ∉ t ∧ cs = t ++ (scanFrom inFraction l p cs).stop.rest := by
  induction cs generalizing inFraction l p with
  | nil => exact ⟨[], List.not_mem_nil, rfl⟩
  | cons c cs ih =>
    have hstop : ∃ t, ')' ∉ t ∧ c :: cs = t ++ (c :: cs) := ⟨[], List.not_mem_nil, rfl⟩
    have hgo (inFraction : Bool) (l : Literal) (hc : c ≠ ')') : ∃ t, ')' ∉ t ∧
        c :: cs = t ++ (scanFrom inFraction l (p + 1) cs).stop.rest := by
      obtain ⟨t, ht, hcs⟩ := ih inFraction l (p + 1)
      exact ⟨c :: t, List.not_mem_cons_of_ne_of_not_mem hc.symm ht,
        by rw [List.cons_append, ← hcs]⟩
    have hdigit (h : c.isDigit = true) : c ≠ ')' := by
      rintro rfl
      exact absurd h (by decide)
    simp only [scanFrom]
    split_ifs with hpoint _ hd
    · exact hstop
    · exact hgo true l (by rw [hpoint]; decide)
    · exact hgo true _ (hdigit hd)
    · exact hgo false _ (hdigit hd)
    · exact hstop
    · exact hstop

/-- The scan of a path moves over no closing parenthesis. -/
lemma Path.scanFrom_skims (seen : List Char) (p : Nat) (cs : List Char) :
    ∃ t, ')' ∉ t ∧ cs = t ++ (scanFrom seen p cs).stop.rest := by
  have hclose (seen : List Char) (stop : Cursor) : (scanFrom.close seen stop).stop = stop := by
    cases seen <;> rfl
  induction cs generalizing seen p with
  | nil => exact ⟨[], List.not_mem_nil, by simp only [scanFrom, hclose, List.append_nil]⟩
  | cons c cs ih =>
    simp only [scanFrom]
    split_ifs with hword hpoint
    · obtain ⟨t, ht, hcs⟩ := ih (c :: seen) (p + 1)
      have hc : c ≠ ')' := Text.ne_of_isWordChar hword (by decide)
      exact ⟨c :: t, List.not_mem_cons_of_ne_of_not_mem hc.symm ht,
        by rw [List.cons_append, ← hcs]⟩
    · obtain ⟨t, ht, hcs⟩ := ih [] (p + 1)
      obtain ⟨rfl, -⟩ := hpoint
      exact ⟨'.' :: t, List.not_mem_cons_of_ne_of_not_mem (by decide) ht,
        by rw [List.cons_append, ← hcs]⟩
    · exact ⟨[], List.not_mem_nil, by rw [hclose, List.nil_append]⟩

namespace Scanner

/-! ## Scanners that close no call -/

/-- **A scanner that closes no call and draws nothing**: it moves over no closing parenthesis,
whether it gives a value or stops with an error. -/
def Skims (m : Scanner (Recorded σ) α) : Prop :=
  ∀ s, ∃ t, ')' ∉ t ∧ s.cursor.rest = t ++ (final (m s)).cursor.rest ∧
    (final (m s)).host.draws = s.host.draws

namespace Skims

/-- A scanner that moves nowhere and makes no call skims. -/
lemma of_still {m : Scanner (Recorded σ) α} (hm : ∀ s, final (m s) = s) : Skims m :=
  fun s => ⟨[], List.not_mem_nil, by rw [hm s]; rfl, by rw [hm s]⟩

/-- A value is given on the spot. -/
protected lemma pure (a : α) : Skims (pure a : Scanner (Recorded σ) α) :=
  of_still fun _ => rfl

/-- A violation is met on the spot. -/
protected lemma fail (v : Violation) : Skims (fail v : Scanner (Recorded σ) α) :=
  of_still fun _ => rfl

/-- **A sequence skims if both of its parts do.** -/
protected lemma bind {m : Scanner (Recorded σ) α} {f : α → Scanner (Recorded σ) β} (hm : Skims m)
    (hf : ∀ a, Skims (f a)) : Skims (m >>= f) := by
  intro s
  obtain ⟨t, ht, hrest, hdraws⟩ := hm s
  rw [bind_apply]
  cases hrun : m s with
  | error e u =>
    rw [hrun] at hrest hdraws
    exact ⟨t, ht, hrest, hdraws⟩
  | ok a u =>
    rw [hrun] at hrest hdraws
    obtain ⟨t', ht', hrest', hdraws'⟩ := hf a u
    refine ⟨t ++ t', List.not_mem_append ht ht', ?_, hdraws'.trans hdraws⟩
    rw [List.append_assoc, ← hrest']
    exact hrest

/-- A run without closing parentheses is skimmed. -/
protected lemma takeRun {p : Char → Bool} (hp : p ')' = false) :
    Skims (takeRun p : Scanner (Recorded σ) (List Char)) := by
  refine fun s => ⟨s.cursor.rest.takeWhile p, fun hmem => ?_, ?_, rfl⟩
  · have hall := List.all_eq_true.mp List.all_takeWhile ')' hmem
    rw [hp] at hall
    exact absurd hall Bool.false_ne_true
  · exact List.takeWhile_append_dropWhile.symm

/-- Any other character than a closing parenthesis is skimmed. -/
protected lemma accept {c : Char} (hc : c ≠ ')') :
    Skims (accept c : Scanner (Recorded σ) Bool) := by
  intro s
  cases hrun : accept c s with
  | error e t =>
    rw [accept_apply] at hrun
    split_ifs at hrun
  | ok b t =>
    obtain ⟨hrest, -, hhost⟩ := rest_of_accept hrun
    refine ⟨if b then [c] else [], ?_, hrest, congrArg Recorded.draws hhost⟩
    split_ifs
    · simpa using hc.symm
    · exact List.not_mem_nil

/-- A call on the host that draws nothing is skimmed. -/
protected lemma onHost {recorded : StateM (Recorded σ) α} {call : StateM σ α}
    (hcall : ∀ s, Draws recorded call s []) : Skims (onHost recorded) :=
  fun s => ⟨[], List.not_mem_nil, rfl, (hcall s.host).record.trans (List.append_nil _)⟩

/-- **Reading a literal skims.** -/
protected lemma number : Skims (number : Scanner (Recorded σ) Float) := by
  intro s
  obtain ⟨t, ht, hrest⟩ :=
    Literal.scanFrom_skims false .empty s.cursor.position s.cursor.rest
  change s.cursor.rest = t ++ (Literal.scan s.cursor).stop.rest at hrest
  refine ⟨t, ht, ?_⟩
  rw [number_apply]
  cases hscan : Literal.scan s.cursor <;> rw [hscan] at hrest <;> exact ⟨hrest, rfl⟩

variable (env : Env ω σ)

/-- Reading the name of a constant skims. -/
protected lemma namedConstant : Skims (namedConstant env.recorded) :=
  .bind (.accept (by decide)) fun _ => .bind (.takeRun (by decide)) fun _ => .pure _

/-- Looking up a path skims. -/
protected lemma lookUp (target : Option ω) (names : List String) (wellFormed : Bool) :
    Skims (lookUp env.recorded target names wellFormed) := by
  refine .bind (.onHost fun s => .follow env target names s) fun found => ?_
  split
  · cases found with
    | none => exact .pure _
    | some object => exact .onHost fun s => .number env object s
  · exact .fail _

/-- **Reading a path skims.** -/
protected lemma memberPath (target : Option ω) : Skims (memberPath env.recorded target) := by
  intro s
  obtain ⟨t, ht, hrest⟩ := Path.scanFrom_skims [] s.cursor.position s.cursor.rest
  obtain ⟨t', ht', hrest', hdraws⟩ := Skims.lookUp env target (Path.scan s.cursor).names
    (Path.scan s.cursor).wellFormed { s with cursor := (Path.scan s.cursor).stop }
  rw [memberPath_eq]
  refine ⟨t ++ t', List.not_mem_append ht ht', ?_, hdraws⟩
  rw [List.append_assoc, ← hrest']
  exact hrest

/-- Reading a path behind a point skims. -/
lemma dotted (typeName : List Char) : Skims (accept '.' >>= fun pointed =>
    if pointed then
      onHost (env.recorded.model.component env.recorded.context
        (String.ofList (Text.trimBlanks typeName))) >>= fun c => memberPath env.recorded c
    else fail (.missingPath (String.ofList typeName))) := by
  refine .bind (.accept (by decide)) fun pointed => ?_
  split
  · exact .bind (.onHost fun s => .component env _ s) fun c => .memberPath env c
  · exact .fail _

end Skims

/-! ## Errors in references -/

section

variable (env : Env ω σ) {error : EvalError} {s' : Running (Recorded σ)}

/-- A scanner that skims closes no call before an error. -/
lemma Skims.of_error {m : Scanner (Recorded σ) α} (hm : Skims m) {s : Running (Recorded σ)}
    (hrun : m s = .error error s') : ∃ t, ')' ∉ t ∧ s.cursor.rest = t ++ s'.cursor.rest ∧
      s'.host.draws = s.host.draws := by
  have h := hm s
  rwa [hrun] at h

/-- **No call is closed where the path of a component stops with an error**: a closing parenthesis
there belongs to the type name. -/
lemma fragment_of_componentPath {s : Running (Recorded σ)}
    (hrun : componentPath env.recorded s = .error error s') :
    ∃ t, Fragment ('$' :: '(' :: t) ∧ s.cursor.rest = t ++ s'.cursor.rest ∧
      s'.host.draws = s.host.draws := by
  rw [componentPath_eq, bind_of_ok (takeRun_apply _ _), registered, bind_apply,
    accept_apply] at hrun
  have hname : ')' ∉ s.cursor.run fun c => c ≠ ')' := fun hmem => by
    have hall := List.all_eq_true.mp (List.all_takeWhile (l := s.cursor.rest)) _ hmem
    simp at hall
  have hsplit : s.cursor.rest = (s.cursor.run fun c => c ≠ ')') ++
      s.cursor.rest.dropWhile fun c => decide (c ≠ ')') :=
    List.takeWhile_append_dropWhile.symm
  split_ifs at hrun with hclose
  · obtain ⟨cs, hcs⟩ := List.head?_eq_some_iff.mp hclose
    obtain ⟨t, ht, hrest, hdraws⟩ := (Skims.dotted env _).of_error hrun
    have hbehind : s.cursor.rest.dropWhile (fun c => decide (c ≠ ')')) = ')' :: cs := hcs
    have hrest' : (s.cursor.rest.dropWhile fun c => decide (c ≠ ')')).drop 1 =
      t ++ s'.cursor.rest := hrest
    rw [hbehind, List.drop_one, List.tail_cons] at hrest'
    refine ⟨_, .component hname ht, ?_, hdraws⟩
    rw [hsplit, hbehind, hrest']
    simp
  · obtain ⟨-, rfl⟩ := EStateM.Result.error.inj hrun
    refine ⟨_, .plain ?_, hsplit, rfl⟩
    simpa using hname

/-- **No call is closed where a reference stops with an error.** -/
lemma fragment_of_reference {p : Nat} {cs : List Char} {d : Nat} {h : Recorded σ}
    (hrun : reference env.recorded (.facing p cs d h) = .error error s') :
    ∃ t, Fragment ('$' :: t) ∧ cs = t ++ s'.cursor.rest ∧ s'.host.draws = h.draws := by
  cases cs with
  | nil => cases hrun
  | cons c cs =>
    rw [reference_cons] at hrun
    split_ifs at hrun with hminus hends hpoint hopen hword
    · obtain ⟨t, ht, hrest, hdraws⟩ := (Skims.namedConstant env).of_error hrun
      exact ⟨t, .plain (by simpa using ht), hrest, hdraws⟩
    · cases hrun
    · obtain ⟨t, ht, hrest, hdraws⟩ := (Skims.memberPath env _).of_error hrun
      have hcs : cs = t ++ s'.cursor.rest := hrest
      exact ⟨'.' :: t, .plain (by simpa using ht), by rw [hpoint, hcs]; rfl, hdraws⟩
    · obtain ⟨t, ht, hrest, hdraws⟩ := fragment_of_componentPath env hrun
      have hcs : cs = t ++ s'.cursor.rest := hrest
      exact ⟨'(' :: t, ht, by rw [hopen, hcs]; rfl, hdraws⟩
    · obtain ⟨t, ht, hrest, hdraws⟩ := (Skims.namedConstant env).of_error hrun
      exact ⟨t, .plain (by simpa using ht), hrest, hdraws⟩
    · obtain ⟨-, rfl⟩ := EStateM.Result.error.inj hrun
      exact ⟨[], .plain (by decide), rfl, rfl⟩

end

/-! ## Errors in calls -/

/-- **A call stops with an error before its arguments**, where no call is closed, **or in them.** -/
lemma call_eq_error {env : Env ω σ} {inner : Option (Scanner σ Float)} {s s' : Running σ}
    {error : EvalError} (hrun : call env inner s = .error error s') :
    (∃ t, ')' ∉ t ∧ s.cursor.rest = t ++ s'.cursor.rest ∧ s'.host = s.host) ∨
      ∃ (f : Builtin) (o cs : List Char), f.Opening o ∧ s.cursor.rest = o ++ cs ∧
        applied env inner f (.facing (s.cursor.position + o.length) cs (s.depth + 1) s.host) =
          .error error s' := by
  obtain ⟨⟨⟨p, rest⟩, d⟩, h⟩ := s
  let name := rest.takeWhile Char.isAlphanum
  let w := (rest.dropWhile Char.isAlphanum).takeWhile Text.isBlank
  let cs := (rest.dropWhile Char.isAlphanum).dropWhile Text.isBlank
  have hrest : rest = name ++ w ++ cs := by
    rw [List.append_assoc, List.takeWhile_append_dropWhile, List.takeWhile_append_dropWhile]
  have halnum : ∀ c ∈ name, c.isAlphanum = true := List.all_eq_true.mp List.all_takeWhile
  have hw : Blanks w := List.all_eq_true.mp List.all_takeWhile
  have hfree : ')' ∉ name ++ w := by
    refine List.not_mem_append (fun hmem => ?_) fun hmem => ?_
    · exact absurd (halnum ')' hmem) (by decide)
    · exact absurd (hw ')' hmem) (by decide)
  rw [call_eq, bind_of_ok (takeRun_apply _ _)] at hrun
  change called env inner name (.facing (p + name.length + w.length) cs d h) = _ at hrun
  by_cases hopen : ∃ cs', cs = '(' :: cs'
  · obtain ⟨cs', hcs⟩ := hopen
    have hrest' : rest = (name ++ w ++ ['(']) ++ cs' := by rw [hrest, hcs]; simp
    have hposition : p + name.length + w.length + 1 = p + (name ++ w ++ ['(']).length := by
      simp only [List.length_append, List.length_singleton]
      omega
    rw [called, hcs, bind_of_ok (accept_cons _ _ _ _ _), if_pos rfl, hposition,
      bind_of_ok (show openParen (.facing _ cs' d h) = .ok () (.facing _ cs' (d + 1) h) from rfl)]
      at hrun
    cases hf : Builtin.named? (String.ofList (Text.lower name)) with
    | none =>
      simp only [hf] at hrun
      obtain ⟨-, rfl⟩ := EStateM.Result.error.inj hrun
      exact .inl ⟨_, List.not_mem_append hfree (by decide), hrest', rfl⟩
    | some f =>
      simp only [hf] at hrun
      exact .inr ⟨f, _, cs', ⟨name, w, Builtin.lower_of_named? hf, hw, rfl⟩, hrest', hrun⟩
  · have hhead : ∀ c ∈ cs.head?, c ≠ '(' := by
      rintro c hc rfl
      exact hopen (List.head?_eq_some_iff.mp hc)
    rw [called, bind_of_ok (accept_of_head hhead _ _ _)] at hrun
    obtain ⟨-, rfl⟩ := EStateM.Result.error.inj hrun
    exact .inl ⟨_, hfree, hrest, rfl⟩

end Scanner

end Formula
