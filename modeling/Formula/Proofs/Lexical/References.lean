import Formula.Proofs.Lexical

set_option relaxedAutoImplicit false
set_option autoImplicit false

/-!
# Texts of references

Paths, the names of constants and the paths of components, each read from the text that the grammar
gives it and from no other, and with the value that it means. The four kinds of references are told
apart by the character behind the mark.

## Main results

* `Formula.Path.scan_text`, `Formula.Path.path_of_scan` — paths are scanned from their texts, and
  from no others.
* `Formula.Scanner.reference_text`, `Formula.Scanner.text_of_reference` — the same for references.
-/

namespace Formula

variable {ω σ : Type}

/-! ## Paths -/

/-- The path of one name is that name. -/
@[simp] lemma pathText_singleton (name : List Char) : pathText [name] = name := by
  simp [pathText, List.intercalate]

/-- A point stands between two names. -/
@[simp] lemma pathText_cons_cons (name next : List Char) (names : List (List Char)) :
    pathText (name :: next :: names) = name ++ '.' :: pathText (next :: names) := by
  simp [pathText, List.intercalate]

/-- A character in front of the first name is one in front of the path. -/
lemma pathText_cons (c : Char) (name : List Char) (names : List (List Char)) :
    pathText ((c :: name) :: names) = c :: pathText (name :: names) := by
  cases names <;> simp

/-- A path ends in a character of a name. -/
lemma IsPath.getLast? {names : List (List Char)} (h : IsPath names) :
    ∃ c, (pathText names).getLast? = some c ∧ Text.isWordChar c = true := by
  obtain ⟨hne, hwf⟩ := h
  induction names with
  | nil => exact absurd rfl hne
  | cons name names ih =>
    cases names with
    | nil =>
      obtain ⟨hnonempty, hword⟩ := hwf name List.mem_cons_self
      refine ⟨name.getLast hnonempty, ?_, hword _ (List.getLast_mem hnonempty)⟩
      rw [pathText_singleton, List.getLast?_eq_some_getLast hnonempty]
    | cons next names =>
      obtain ⟨c, hlast, hc⟩ := ih (by simp) fun n hn => hwf n (List.mem_cons_of_mem _ hn)
      refine ⟨c, ?_, hc⟩
      rw [pathText_cons_cons, List.getLast?_append, List.getLast?_cons, hlast]
      rfl

namespace Path

/-- The scan gathers the characters of a name. -/
lemma scanFrom_name {name : List Char} (hname : ∀ c ∈ name, Text.isWordChar c = true)
    (seen rest : List Char) (p : Nat) :
    scanFrom seen p (name ++ rest) = scanFrom (name.reverse ++ seen) (p + name.length) rest := by
  induction name generalizing seen p with
  | nil => rfl
  | cons c name ih =>
    simp only [List.cons_append, scanFrom, hname c List.mem_cons_self, if_true]
    rw [ih fun c hc => hname c (List.mem_cons_of_mem _ hc)]
    simp only [List.reverse_cons, List.append_assoc, List.singleton_append, List.length_cons]
    congr 1
    omega

/-- The scan closes a name where neither a character of a name nor a point follows. -/
lemma scanFrom_stop {rest : List Char} (hrest : FollowsOperand rest) (seen : List Char) (p : Nat) :
    scanFrom seen p rest = scanFrom.close seen ⟨p, rest⟩ := by
  cases rest with
  | nil => rfl
  | cons c cs => simp [scanFrom, hrest.not_isWordChar c rfl, hrest.ne_point c rfl]

/-- **A path is scanned from its text** when something follows that may follow an operand.

**Proof sketch.** Induction on the names. A name is gathered up to the point or to the end of the
path, where it is closed; it is not empty. -/
lemma scan_text {names : List (List Char)} (hnames : IsPath names) {rest : List Char}
    (hrest : FollowsOperand rest) (p : Nat) :
    scan ⟨p, pathText names ++ rest⟩ =
      ⟨names.map String.ofList, true, ⟨p + (pathText names).length, rest⟩⟩ := by
  show scanFrom [] p _ = _
  obtain ⟨hne, hwf⟩ := hnames
  induction names generalizing p with
  | nil => exact absurd rfl hne
  | cons name names ih =>
    obtain ⟨hnonempty, hword⟩ := hwf name List.mem_cons_self
    cases names with
    | nil =>
      rw [pathText_singleton, scanFrom_name hword, scanFrom_stop hrest]
      simp [scanFrom.close, hnonempty]
    | cons next names =>
      have hpoint : Text.isWordChar '.' = false := by decide
      rw [pathText_cons_cons, List.append_assoc, scanFrom_name hword]
      simp only [List.append_nil, List.cons_append, scanFrom, hpoint, Bool.false_eq_true, if_false,
        List.reverse_reverse, ne_eq, List.reverse_eq_nil_iff, hnonempty, not_false_eq_true,
        and_self, if_true]
      rw [ih _ (by simp) fun n hn => hwf n (List.mem_cons_of_mem _ hn)]
      simp only [List.map_cons, List.length_append, List.length_cons, mk.injEq, true_and,
        Cursor.mk.injEq, and_true]
      omega

/-- A name that is closed is a path of one name if it is not empty. -/
lemma isPath_of_close {seen : List Char} (hseen : ∀ c ∈ seen, Text.isWordChar c = true)
    {stop : Cursor} (h : (scanFrom.close seen stop).wellFormed = true) :
    IsPath [seen.reverse] ∧ (scanFrom.close seen stop).stop = stop ∧
      (scanFrom.close seen stop).names = [String.ofList seen.reverse] := by
  cases seen with
  | nil => simp [scanFrom.close] at h
  | cons c seen =>
    refine ⟨⟨by simp, fun n hn => ?_⟩, rfl, rfl⟩
    obtain rfl : n = (c :: seen).reverse := by simpa using hn
    exact ⟨by simp, fun c hc => hseen c (List.mem_reverse.mp hc)⟩

/-- **What a scan gathers is a path** if it is well-formed, the name begun before it included.

**Proof sketch.** Induction on the text. A character of a name joins the name begun; a point closes
it, and the induction hypothesis gives the names behind. -/
lemma names_of_scanFrom {cs seen : List Char} (hseen : ∀ c ∈ seen, Text.isWordChar c = true)
    {p : Nat} (h : (scanFrom seen p cs).wellFormed = true) :
    ∃ (more : List Char) (names : List (List Char)), IsPath ((seen.reverse ++ more) :: names) ∧
      cs = pathText (more :: names) ++ (scanFrom seen p cs).stop.rest ∧
      (scanFrom seen p cs).names = ((seen.reverse ++ more) :: names).map String.ofList := by
  induction cs generalizing seen p with
  | nil =>
    obtain ⟨hpath, hstop, hnames⟩ := isPath_of_close hseen h
    exact ⟨[], [], by simpa using hpath, by simp [scanFrom, hstop],
      by simpa [scanFrom] using hnames⟩
  | cons c cs ih =>
    simp only [scanFrom] at h ⊢
    split_ifs at h ⊢ with hword hpoint
    · obtain ⟨more, names, hpath, hcs, hnames⟩ :=
        ih (by simpa using ⟨hword, hseen⟩ : ∀ x ∈ c :: seen, Text.isWordChar x = true) h
      simp only [List.reverse_cons, List.append_assoc, List.singleton_append] at hpath hnames
      refine ⟨c :: more, names, hpath, ?_, hnames⟩
      rw [pathText_cons, List.cons_append, ← hcs]
    · obtain ⟨rfl, hne⟩ := hpoint
      have hempty : ∀ x ∈ ([] : List Char), Text.isWordChar x = true := by simp
      obtain ⟨more, names, ⟨-, hwf⟩, hcs, hnames⟩ := ih hempty h
      simp only [List.reverse_nil, List.nil_append] at hwf hnames
      refine ⟨[], more :: names, ⟨by simp, fun n hn => ?_⟩, ?_, ?_⟩
      · rcases List.mem_cons.mp hn with rfl | hn
        · exact ⟨by simpa using hne, fun c hc => hseen c (by simpa using hc)⟩
        · exact hwf n hn
      · rw [pathText_cons_cons, List.nil_append, List.cons_append, ← hcs]
      · simp [hnames]
    · obtain ⟨hpath, hstop, hnames⟩ := isPath_of_close hseen h
      exact ⟨[], [], by simpa using hpath, by simp [hstop], by simpa using hnames⟩

/-- What a well-formed scan gathers is a path. -/
lemma path_of_scan {cursor : Cursor} (h : (scan cursor).wellFormed = true) :
    ∃ names : List (List Char), IsPath names ∧
      cursor.rest = pathText names ++ (scan cursor).stop.rest ∧
      (scan cursor).names = names.map String.ofList := by
  obtain ⟨name, names, hpath, hcs, hnames⟩ := names_of_scanFrom (by simp) h
  simp only [List.reverse_nil, List.nil_append] at hpath hnames
  exact ⟨name :: names, hpath, hcs, hnames⟩

end Path

/-! ## References -/

namespace Scanner

variable (env : Env ω σ)

/-- The first character behind a mark decides what is referred to. -/
lemma reference_cons (c : Char) (p : Nat) (cs : List Char) (d : Nat) (h : σ) :
    reference env (.facing p (c :: cs) d h) =
      (if c = '-' ∧ cs.head?.any Char.isAlpha = true then namedConstant env
      else if endsOperand c then wholeContext env
      else if c = '.' then advance >>= fun _ => memberPath env (some env.context)
      else if c = '(' then advance >>= fun _ => componentPath env
      else if Text.isWordChar c then namedConstant env
      else fail (.notReference c)) (.facing p (c :: cs) d h) := rfl

/-- **A well-formed path is followed from its target.** -/
lemma memberPath_of_wellFormed (target : Option ω) {names : List (List Char)} {s : Running σ}
    (hwf : (Path.scan s.cursor).wellFormed = true)
    (hnames : (Path.scan s.cursor).names = names.map String.ofList) :
    memberPath env target s = .ok (followed env target names s.host).1
      { s with
        cursor := (Path.scan s.cursor).stop, host := (followed env target names s.host).2 } := by
  rw [memberPath_apply, bind_of_ok (onHost_apply _ _)]
  simp only [hwf, if_true, hnames, followed, bind, StateT.bind]
  rcases env.model.follow target (names.map String.ofList) s.host with ⟨_ | object, host⟩
  · rfl
  · rfl

/-- A path is read from its text and followed from its target. -/
lemma memberPath_text {names : List (List Char)} (hnames : IsPath names) {rest : List Char}
    (hrest : FollowsOperand rest) (target : Option ω) (p d : Nat) (h : σ) :
    memberPath env target (.facing p (pathText names ++ rest) d h) =
      .ok (followed env target names h).1
        (.facing (p + (pathText names).length) rest d (followed env target names h).2) := by
  have hscan := Path.scan_text hnames hrest p
  rw [memberPath_of_wellFormed env target (congrArg Path.wellFormed hscan)
    (congrArg Path.names hscan), hscan]

/-- **A path that is read is a path of the grammar**, and it is followed from its target. -/
lemma text_of_memberPath {target : Option ω} {s t : Running σ} {x : Float}
    (hrun : memberPath env target s = .ok x t) :
    ∃ names, IsPath names ∧ s.cursor.rest = pathText names ++ t.cursor.rest ∧
      followed env target names s.host = (x, t.host) ∧ t.depth = s.depth := by
  cases hwf : (Path.scan s.cursor).wellFormed with
  | false =>
    rw [memberPath_apply, bind_of_ok (onHost_apply _ _)] at hrun
    simp only [hwf, Bool.false_eq_true, if_false] at hrun
    cases hrun
  | true =>
    obtain ⟨names, hpath, hcs, hnames⟩ := Path.path_of_scan hwf
    rw [memberPath_of_wellFormed env target hwf hnames] at hrun
    obtain ⟨rfl, rfl⟩ := EStateM.Result.ok.inj hrun
    exact ⟨names, hpath, hcs, rfl, rfl⟩

/-- **The name of a constant is read from its text** when nothing follows that would continue it; an
unknown one is zero. -/
lemma namedConstant_text (negative : Bool) {name : List Char} (hname : IsName name)
    {rest : List Char} (hrest : ∀ c ∈ rest.head?, Text.isWordChar c = false) (p d : Nat) (h : σ) :
    namedConstant env (.facing p ((Reference.constant negative name).text ++ rest) d h) =
      .ok ((Reference.constant negative name).meaning env h).1
        (.facing (p + (Reference.constant negative name).text.length) rest d h) := by
  have hrun := fun position =>
    takeRun_facing (σ := σ) hname.2 hrest position d h
  unfold namedConstant
  cases negative with
  | true =>
    show (accept '-' >>= _) (.facing p ('-' :: (name ++ rest)) d h) = _
    rw [bind_of_ok (accept_cons _ _ _ _ _), bind_of_ok (hrun _)]
    show _ = EStateM.Result.ok _ (Running.facing (p + ('-' :: name).length) rest d h)
    rw [position_cons]
    rfl
  | false =>
    have hhead : ∀ x ∈ (name ++ rest).head?, x ≠ '-' := by
      obtain ⟨c, cs, rfl⟩ := List.exists_cons_of_ne_nil hname.1
      intro x hx
      obtain rfl : c = x := by simpa using hx
      exact Text.ne_of_isWordChar (hname.2 c List.mem_cons_self) (by decide)
    show (accept '-' >>= _) (.facing p (name ++ rest) d h) = _
    rw [bind_of_ok (accept_of_head hhead _ _ _), bind_of_ok (hrun _)]
    rfl

/-- **A constant that is read is one of the grammar**: behind a minus sign its name starts with a
letter. -/
lemma text_of_namedConstant {c : Char} {cs : List Char}
    (hc : c = '-' ∧ cs.head?.any Char.isAlpha = true ∨ Text.isWordChar c = true) {p d : Nat} {h : σ}
    {x : Float} {t : Running σ}
    (hrun : namedConstant env (.facing p (c :: cs) d h) = .ok x t) :
    ∃ (negative : Bool) (name : List Char), (Reference.constant negative name).WellFormed ∧
      c :: cs = (Reference.constant negative name).text ++ t.cursor.rest ∧
      (Reference.constant negative name).meaning env h = (x, t.host) ∧ t.depth = d := by
  unfold namedConstant at hrun
  by_cases hminus : c = '-'
  · subst hminus
    have halpha : cs.head?.any Char.isAlpha = true := by
      rcases hc with ⟨-, hc⟩ | hc
      · exact hc
      · exact absurd hc (by decide)
    rw [bind_of_ok (accept_cons _ _ _ _ _), bind_of_ok (takeRun_apply _ _)] at hrun
    obtain ⟨hx, rfl⟩ := pure_eq_ok.mp hrun
    obtain ⟨a, as, rfl⟩ : ∃ a as, cs = a :: as := by
      cases cs with
      | nil => exact absurd halpha (by simp)
      | cons a as => exact ⟨a, as, rfl⟩
    have ha : a.isAlpha = true := halpha
    have hword : Text.isWordChar a = true :=
      Text.isWordChar_of_isAlphanum (by simp [Char.isAlphanum, ha])
    have hname : (a :: as).takeWhile Text.isWordChar = a :: as.takeWhile Text.isWordChar :=
      List.takeWhile_cons_of_pos hword
    refine ⟨true, (a :: as).takeWhile Text.isWordChar, ⟨⟨?_, ?_⟩, fun _ => ?_⟩, ?_, ?_, rfl⟩
    · rw [hname]
      exact List.cons_ne_nil _ _
    · exact List.all_eq_true.mp List.all_takeWhile
    · rw [hname]
      exact ha
    · show '-' :: (a :: as) = '-' :: (a :: as).takeWhile Text.isWordChar ++
        (a :: as).dropWhile Text.isWordChar
      rw [List.cons_append, List.takeWhile_append_dropWhile]
    · exact Prod.ext hx rfl
  · have hword : Text.isWordChar c = true := hc.resolve_left fun hc => hminus hc.1
    have hhead : ∀ x ∈ (c :: cs).head?, x ≠ '-' := by
      rintro x hx rfl
      exact hminus (by simpa using hx)
    rw [bind_of_ok (accept_of_head hhead _ _ _), bind_of_ok (takeRun_apply _ _)] at hrun
    obtain ⟨hx, rfl⟩ := pure_eq_ok.mp hrun
    have hname : (c :: cs).takeWhile Text.isWordChar = c :: cs.takeWhile Text.isWordChar :=
      List.takeWhile_cons_of_pos hword
    refine ⟨false, (c :: cs).takeWhile Text.isWordChar, ⟨⟨?_, ?_⟩, ?_⟩, ?_, ?_, rfl⟩
    · rw [hname]
      exact List.cons_ne_nil _ _
    · exact List.all_eq_true.mp List.all_takeWhile
    · exact fun h => absurd h Bool.false_ne_true
    · exact List.takeWhile_append_dropWhile.symm
    · exact Prod.ext hx rfl

/-- A component's path is read behind the name of the component's type. -/
lemma componentPath_text {typeName : List Char} {names : List (List Char)}
    (htype : ')' ∉ typeName) (hnames : IsPath names) {rest : List Char}
    (hrest : FollowsOperand rest) (p d : Nat) (h : σ) :
    componentPath env (.facing p (typeName ++ ')' :: '.' :: (pathText names ++ rest)) d h) =
      .ok ((Reference.component typeName names).meaning env h).1
        (.facing (p + typeName.length + 1 + 1 + (pathText names).length) rest d
          ((Reference.component typeName names).meaning env h).2) := by
  have htype' : ∀ c ∈ typeName, decide (c ≠ ')') = true := by
    intro c hc
    refine decide_eq_true fun h => htype ?_
    rwa [h] at hc
  have hclose : ∀ c ∈ (')' :: '.' :: (pathText names ++ rest)).head?,
      decide (c ≠ ')') = false := by simp
  unfold componentPath
  rw [bind_of_ok (takeRun_facing htype' hclose p d h), bind_of_ok (accept_cons _ _ _ _ _)]
  simp only [if_true]
  rw [bind_of_ok (accept_cons _ _ _ _ _)]
  simp only [if_true]
  rw [bind_of_ok (onHost_apply _ _), memberPath_text env hnames hrest]
  rfl

/-- **A component's path that is read is one of the grammar.** -/
lemma text_of_componentPath {s t : Running σ} {x : Float}
    (hrun : componentPath env s = .ok x t) :
    ∃ (typeName : List Char) (names : List (List Char)),
      (Reference.component typeName names).WellFormed ∧
      s.cursor.rest = typeName ++ ')' :: '.' :: pathText names ++ t.cursor.rest ∧
      (Reference.component typeName names).meaning env s.host = (x, t.host) ∧
      t.depth = s.depth := by
  unfold componentPath at hrun
  rw [bind_of_ok (takeRun_apply _ _)] at hrun
  obtain ⟨closed, s₁, hclose, hrun⟩ := bind_eq_ok.mp hrun
  obtain ⟨hrest₁, hdepth₁, hhost₁⟩ := rest_of_accept hclose
  cases closed with
  | false => cases hrun
  | true =>
    obtain ⟨pointed, s₂, hpoint, hrun⟩ := bind_eq_ok.mp hrun
    obtain ⟨hrest₂, hdepth₂, hhost₂⟩ := rest_of_accept hpoint
    cases pointed with
    | false => cases hrun
    | true =>
      simp only [if_true] at hrun hrest₁ hrest₂
      rw [bind_of_ok (onHost_apply _ _)] at hrun
      obtain ⟨names, hnames, hrest₃, hvalue, hdepth₃⟩ := text_of_memberPath env hrun
      refine ⟨s.cursor.run fun c => c ≠ ')', names, ⟨?_, hnames⟩, ?_, ?_, ?_⟩
      · intro hmem
        have hall := List.all_eq_true.mp (List.all_takeWhile (l := s.cursor.rest)) _ hmem
        simp at hall
      · have hsplit : s.cursor.rest = (s.cursor.rest.takeWhile fun c => decide (c ≠ ')')) ++
            (s.cursor.rest.dropWhile fun c => decide (c ≠ ')')) :=
          List.takeWhile_append_dropWhile.symm
        have hrest₁' : (s.cursor.rest.dropWhile fun c => decide (c ≠ ')')) =
          [')'] ++ s₁.cursor.rest := hrest₁
        have hrest₃' : s₂.cursor.rest = pathText names ++ t.cursor.rest := hrest₃
        rw [hrest₁', hrest₂, hrest₃'] at hsplit
        simpa [Cursor.run] using hsplit
      · have hhost : s₂.host = s.host := hhost₂.trans hhost₁
        rw [← hvalue, ← hhost]
        rfl
      · exact hdepth₃.trans (hdepth₂.trans hdepth₁)

/-- **A reference is read from its text**, and moves the cursor behind it.

**Proof sketch.** The first character behind the mark tells the four kinds apart. Behind the mark
of the context it belongs to what follows, which is no name of a constant since it may touch the
mark. -/
lemma reference_text {target : Reference} (htarget : target.WellFormed) {rest : List Char}
    (hrest : FollowsOperand rest) (htouch : MayTouch ('$' :: target.text) rest) (p d : Nat)
    (h : σ) :
    reference env (.facing p (target.text ++ rest) d h) =
      .ok (target.meaning env h).1
        (.facing (p + target.text.length) rest d (target.meaning env h).2) := by
  cases target with
  | context =>
    change reference env (.facing p rest d h) = wholeContext env (.facing p rest d h)
    cases rest with
    | nil => rfl
    | cons c cs =>
      have hminus : ¬ (c = '-' ∧ cs.head?.any Char.isAlpha = true) :=
        fun hc => htouch ⟨rfl, by simp [hc.1], hc.2⟩
      rw [reference_cons, if_neg hminus, if_pos (hrest c rfl)]
  | constant negative name =>
    refine Eq.trans ?_ (namedConstant_text env negative htarget.1 hrest.not_isWordChar p d h)
    obtain ⟨c, cs, rfl⟩ := List.exists_cons_of_ne_nil htarget.1.1
    cases negative with
    | true =>
      have halpha : ((c :: cs) ++ rest).head?.any Char.isAlpha = true := htarget.2 rfl
      change reference env (.facing p ('-' :: ((c :: cs) ++ rest)) d h) = _
      rw [reference_cons, if_pos ⟨rfl, halpha⟩]
      rfl
    | false =>
      have hword : Text.isWordChar c = true := htarget.1.2 c List.mem_cons_self
      have hminus : c ≠ '-' := Text.ne_of_isWordChar hword (by decide)
      have hpoint : c ≠ '.' := Text.ne_of_isWordChar hword (by decide)
      have hopen : c ≠ '(' := Text.ne_of_isWordChar hword (by decide)
      have hends : ¬ endsOperand c = true := fun hc =>
        Text.ne_of_isWordChar hword (isWordChar_of_endsOperand hc) rfl
      change reference env (.facing p (c :: (cs ++ rest)) d h) = _
      rw [reference_cons, if_neg fun hc => hminus hc.1, if_neg hends, if_neg hpoint, if_neg hopen,
        if_pos hword]
      rfl
  | member names =>
    change reference env (.facing p ('.' :: (pathText names ++ rest)) d h) = _
    have hminus (b : Prop) : ¬ ('.' = '-' ∧ b) := fun hc => absurd hc.1 (by decide)
    rw [reference_cons, if_neg (hminus _), if_neg (by decide), if_pos rfl]
    show memberPath env (some env.context) (.facing (p + 1) (pathText names ++ rest) d h) = _
    rw [memberPath_text env htarget hrest]
    show _ = EStateM.Result.ok _ (Running.facing (p + ('.' :: pathText names).length) rest d _)
    rw [position_cons]
    rfl
  | component typeName names =>
    have htext : (Reference.component typeName names).text ++ rest =
        '(' :: (typeName ++ ')' :: '.' :: (pathText names ++ rest)) := by
      simp [Reference.text]
    have hlength : p + (Reference.component typeName names).text.length =
        p + 1 + typeName.length + 1 + 1 + (pathText names).length := by
      simp only [Reference.text, List.length_append, List.length_cons, List.length_nil]
      omega
    have hminus (b : Prop) : ¬ ('(' = '-' ∧ b) := fun hc => absurd hc.1 (by decide)
    rw [htext, hlength, reference_cons, if_neg (hminus _), if_neg (by decide),
      if_neg (by decide), if_pos rfl]
    exact componentPath_text env htarget.1 htarget.2 hrest (p + 1) d h

/-- The text of a reference ends in a mark only if it is that of the context. -/
lemma mayTouch_of_ne_context {target : Reference} (htarget : target.WellFormed)
    (hne : target ≠ .context) (rest : List Char) : MayTouch ('$' :: target.text) rest := by
  have hlast : ∃ before behind c, '$' :: target.text = before ++ behind ∧
      behind.getLast? = some c ∧ Text.isWordChar c = true := by
    cases target with
    | context => exact absurd rfl hne
    | constant negative name =>
      have hpath : IsPath [name] := ⟨List.cons_ne_nil _ _, by simpa using htarget.1⟩
      obtain ⟨c, hc, hword⟩ := hpath.getLast?
      rw [pathText_singleton] at hc
      cases negative with
      | true => exact ⟨['$', '-'], name, c, rfl, hc, hword⟩
      | false => exact ⟨['$'], name, c, rfl, hc, hword⟩
    | member names =>
      obtain ⟨c, hc, hword⟩ := IsPath.getLast? htarget
      exact ⟨['$', '.'], pathText names, c, rfl, hc, hword⟩
    | component typeName names =>
      obtain ⟨c, hc, hword⟩ := htarget.2.getLast?
      exact ⟨'$' :: '(' :: typeName ++ [')', '.'], pathText names, c, by simp [Reference.text],
        hc, hword⟩
  rintro ⟨hmark, -⟩
  obtain ⟨before, behind, c, htext, hc, hword⟩ := hlast
  rw [htext, List.getLast?_append, hc] at hmark
  have hne : c ≠ '$' := Text.ne_of_isWordChar hword (by decide)
  exact hne (by simpa using hmark)

/-- **A reference that is read is one of the grammar**, and what follows may touch it. -/
lemma text_of_reference {s t : Running σ} {x : Float} (hrun : reference env s = .ok x t) :
    ∃ target : Reference, target.WellFormed ∧ s.cursor.rest = target.text ++ t.cursor.rest ∧
      MayTouch ('$' :: target.text) t.cursor.rest ∧ target.meaning env s.host = (x, t.host) ∧
      t.depth = s.depth := by
  obtain ⟨⟨⟨p, cs⟩, d⟩, h⟩ := s
  cases cs with
  | nil =>
    change wholeContext env (.facing p [] d h) = .ok x t at hrun
    simp only [wholeContext, onHost_apply, EStateM.Result.ok.injEq] at hrun
    obtain ⟨rfl, rfl⟩ := hrun
    exact ⟨.context, trivial, rfl, fun hm => by simp at hm, rfl, rfl⟩
  | cons c cs =>
    rw [reference_cons] at hrun
    split_ifs at hrun with hminus hends hpoint hopen hword
    · obtain ⟨negative, name, hwf, hrest, hvalue, hdepth⟩ :=
        text_of_namedConstant env (Or.inl hminus) hrun
      exact ⟨_, hwf, hrest, mayTouch_of_ne_context hwf (by simp) _, hvalue, hdepth⟩
    · simp only [wholeContext, onHost_apply, EStateM.Result.ok.injEq] at hrun
      obtain ⟨rfl, rfl⟩ := hrun
      refine ⟨.context, trivial, rfl, fun hm => hminus ?_, rfl, rfl⟩
      exact ⟨by simpa using hm.2.1, hm.2.2⟩
    · subst hpoint
      obtain ⟨names, hnames, hrest, hvalue, hdepth⟩ := text_of_memberPath env hrun
      have hwf : (Reference.member names).WellFormed := hnames
      exact ⟨_, hwf, congrArg (List.cons '.') hrest, mayTouch_of_ne_context hwf (by simp) _, hvalue,
        hdepth⟩
    · subst hopen
      obtain ⟨typeName, names, hwf, hrest, hvalue, hdepth⟩ := text_of_componentPath env hrun
      refine ⟨_, hwf, ?_, mayTouch_of_ne_context hwf (by simp) _, hvalue, hdepth⟩
      have hrest' : cs = typeName ++ ')' :: '.' :: pathText names ++ t.cursor.rest := hrest
      simp [Reference.text, hrest']
    · obtain ⟨negative, name, hwf, hrest, hvalue, hdepth⟩ :=
        text_of_namedConstant env (Or.inr hword) hrun
      exact ⟨_, hwf, hrest, mayTouch_of_ne_context hwf (by simp) _, hvalue, hdepth⟩
    · cases hrun

end Scanner

end Formula
