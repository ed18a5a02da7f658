import Formula.Proofs.Pairing.Operands

set_option relaxedAutoImplicit false
set_option autoImplicit false

/-!
# Texts that are read alike

Two texts may differ and yet be read alike, character by character: in how many blanks separate the
parts, or in the case of the letters. A **likeness** says which texts these are, by what may lie
ahead of two runs: in both a gap, that is a blank or the end of the text, or in both a character
that is no blank, the two being the same or the same letter up to case. Then both runs take the same
branches, find the same objects, and compute the same values; what differs are the positions, which
the places where the runs stop decide.

## Main definitions

* `Formula.NoTypeName` — texts in which no type name is written.
* `Formula.Likeness` — which texts are read alike.
* `Formula.Likeness.Seen` — what lies ahead of two runs.
* `Formula.Likeness.Outcome` — results that go together.
* `Formula.Likeness.Alike` — scanners that come to the same in texts that are read alike.
* `Formula.Likeness.Finds` — environments that find the same objects under names that are alike.

## Main results

* `Formula.Likeness.Alike.number`, `Formula.Likeness.Alike.operator`,
  `Formula.Likeness.reference_alike` — literals, operators and references come to the same.
-/

namespace Formula

open Scanner

variable {ω σ α β : Type}

/-! ## Letters up to case -/

namespace Text

/-- **Characters with the same lower case** are the same, or both are letters of ASCII. -/
lemma eq_or_isAlpha_of_toLower {c d : Char} (h : c.toLower = d.toLower) :
    c = d ∨ c.isAlpha = true ∧ d.isAlpha = true := by
  have halpha : c.isAlpha = d.isAlpha := by
    rw [← Char.isLower_toLower_eq_isAlpha, h, Char.isLower_toLower_eq_isAlpha]
  by_cases hc : c.isAlpha = true
  · exact .inr ⟨hc, halpha ▸ hc⟩
  · have hupper {x : Char} (hx : ¬ x.isAlpha = true) : ¬ x.isUpper = true := by
      intro h
      rw [Char.isAlpha, h, Bool.true_or] at hx
      exact hx rfl
    rw [Char.toLower_eq_of_not_isUpper (hupper hc),
      Char.toLower_eq_of_not_isUpper (hupper (halpha ▸ hc))] at h
    exact .inl h

/-- A letter of ASCII is a letter or digit of ASCII. -/
lemma isAlphanum_of_isAlpha {c : Char} (h : c.isAlpha = true) : c.isAlphanum = true := by
  rw [Char.isAlphanum, h, Bool.true_or]

/-- A letter of ASCII is none of the characters that are no letters. -/
lemma ne_of_isAlpha {c d : Char} (hc : c.isAlpha = true) (hd : d.isAlpha = false) : c ≠ d := by
  rintro rfl
  rw [hc] at hd
  exact absurd hd (by simp)

/-- A letter of ASCII has the lower case in the name of a constant that it has elsewhere. -/
lemma lowerNameChar_of_isAlpha {c : Char} (h : c.isAlpha = true) : lowerNameChar c = c.toLower :=
  if_neg (ne_of_isAlpha h (by decide))

/-- A blank is none of the characters that are no blanks. -/
lemma ne_of_isBlank {c d : Char} (hc : isBlank c = true) (hd : isBlank d = false) : c ≠ d := by
  rintro rfl
  rw [hc] at hd
  exact absurd hd (by simp)

end Text

/-- **A gap**: the end of the text, or a blank. -/
def Gap (rest : List Char) : Prop :=
  ∀ c ∈ rest.head?, Text.isBlank c = true

namespace Gap

variable {rest : List Char} (h : Gap rest)

include h

/-- A run of characters that are no blanks ends in a gap. -/
lemma takeWhile_eq {p : Char → Bool} (hp : ∀ c, Text.isBlank c = true → p c = false) :
    rest.takeWhile p = [] ∧ rest.dropWhile p = rest := by
  cases rest with
  | nil => exact ⟨rfl, rfl⟩
  | cons c rest =>
    have hc : p c = false := hp c (h c rfl)
    exact ⟨List.takeWhile_cons_of_neg (by simp [hc]), List.dropWhile_cons_of_neg (by simp [hc])⟩

/-- A gap starts with none of the characters that are no blanks. -/
lemma head_ne {d : Char} (hd : Text.isBlank d = false) : rest.head? ≠ some d :=
  fun hc => Text.ne_of_isBlank (h d hc) hd rfl

/-- A gap may follow an operand. -/
lemma followsOperand : FollowsOperand rest := by
  intro c hc
  rw [endsOperand, h c hc, Bool.true_or]

end Gap

/-! ## Likenesses -/

/-- **No type name is written**: no mark stands right before an opening parenthesis. -/
def NoTypeName (text : List Char) : Prop :=
  ¬ ['$', '('] <:+: text

instance (text : List Char) : Decidable (NoTypeName text) :=
  inferInstanceAs (Decidable (¬ _))

/-- What stands behind a mark is no opening parenthesis. -/
lemma NoTypeName.head_ne {u : List Char} (h : NoTypeName ('$' :: u)) : u.head? ≠ some '(' := by
  intro hu
  obtain ⟨tail, rfl⟩ := List.head?_eq_some_iff.mp hu
  exact h ⟨[], tail, rfl⟩

/-- In a part of a text no type name is written if none is in the text. -/
lemma NoTypeName.of_suffix {t u : List Char} (h : NoTypeName t) (hu : u <:+ t) : NoTypeName u :=
  fun hin => h (hin.trans hu.isInfix)

/-- **Which texts are read alike.** -/
structure Likeness where
  /-- The characters that count as the same. -/
  chars : Char → Char → Prop
  /-- The texts that may lie ahead of the two runs. -/
  ahead : List Char → List Char → Prop
  /-- Characters that count as the same differ at most in case. -/
  lower : ∀ {c₁ c₂ : Char}, chars c₁ c₂ → c₁.toLower = c₂.toLower
  /-- What lies behind the blanks ahead may lie ahead. -/
  settle : ∀ {t₁ t₂ : List Char}, ahead t₁ t₂ → ahead (Text.dropBlanks t₁) (Text.dropBlanks t₂)
  /-- Both texts start with a gap, or with characters that count as the same. -/
  head : ∀ {t₁ t₂ : List Char}, ahead t₁ t₂ → (Gap t₁ ∧ Gap t₂) ∨
    ∃ c₁ c₂ u₁ u₂, t₁ = c₁ :: u₁ ∧ t₂ = c₂ :: u₂ ∧ Text.isBlank c₁ = false ∧ chars c₁ c₂ ∧
      ahead u₁ u₂
  /-- No type name stands behind a mark. -/
  mark : ∀ {u₁ t₂ : List Char}, ahead ('$' :: u₁) t₂ → u₁.head? ≠ some '('

namespace Likeness

variable (L : Likeness)

/-- **What lies ahead of two runs**: a gap, the same character, or letters that count as the
same. -/
inductive Seen : List Char → List Char → Prop
  | gap {t₁ t₂ : List Char} : Gap t₁ → Gap t₂ → Seen t₁ t₂
  | same {c : Char} {u₁ u₂ : List Char} : Text.isBlank c = false → L.chars c c → L.ahead u₁ u₂ →
      Seen (c :: u₁) (c :: u₂)
  | letters {c₁ c₂ : Char} {u₁ u₂ : List Char} : c₁.isAlpha = true → c₂.isAlpha = true →
      L.chars c₁ c₂ → L.ahead u₁ u₂ → Seen (c₁ :: u₁) (c₂ :: u₂)

/-- One of the three lies ahead of texts that are read alike. -/
lemma seen {t₁ t₂ : List Char} (h : L.ahead t₁ t₂) : L.Seen t₁ t₂ := by
  rcases L.head h with ⟨h₁, h₂⟩ | ⟨c₁, c₂, u₁, u₂, rfl, rfl, hblank, hchars, hahead⟩
  · exact .gap h₁ h₂
  · rcases Text.eq_or_isAlpha_of_toLower (L.lower hchars) with rfl | ⟨h₁, h₂⟩
    · exact .same hblank hchars hahead
    · exact .letters h₁ h₂ hchars hahead

/-- Names whose characters count as the same. -/
def Names (n₁ n₂ : String) : Prop :=
  List.Forall₂ L.chars n₁.toList n₂.toList

/-- Characters that count as the same, one by one, are the same in lower case. -/
lemma lower_eq {t₁ t₂ : List Char} (h : List.Forall₂ L.chars t₁ t₂) :
    Text.lower t₁ = Text.lower t₂ := by
  induction h with
  | nil => rfl
  | cons hc _ ih => exact congrArg₂ List.cons (L.lower hc) ih

/-- The same holds of the lower case in the name of a constant. -/
lemma lowerName_eq {t₁ t₂ : List Char} (h : List.Forall₂ L.chars t₁ t₂) :
    Text.lowerName t₁ = Text.lowerName t₂ := by
  induction h with
  | nil => rfl
  | @cons c₁ c₂ t₁ t₂ hc _ ih =>
    have hhead : Text.lowerNameChar c₁ = Text.lowerNameChar c₂ := by
      have hlower := L.lower hc
      rcases Text.eq_or_isAlpha_of_toLower hlower with rfl | ⟨h₁, h₂⟩
      · rfl
      · rw [Text.lowerNameChar_of_isAlpha h₁, Text.lowerNameChar_of_isAlpha h₂, hlower]
    exact congrArg₂ List.cons hhead ih

/-- **States that go together**: what lies ahead is read alike, equally many parentheses are open,
and the hosts are in the same state. -/
structure Joined (s₁ s₂ : Running σ) : Prop where
  ahead : L.ahead s₁.cursor.rest s₂.cursor.rest
  depth : s₁.depth = s₂.depth
  host : s₁.host = s₂.host

/-- **Violations that go together**: the same, or operators missing at characters that count as the
same. -/
inductive Violations : Violation → Violation → Prop
  | refl (v : Violation) : Violations v v
  | notOperator {c₁ c₂ : Char} : L.chars c₁ c₂ → Violations (.notOperator c₁) (.notOperator c₂)

/-- **Errors that go together**: malformed texts, whatever their positions, for violations that go
together, and otherwise the same error. -/
inductive Errors : EvalError → EvalError → Prop
  | malformed {p₁ p₂ : Nat} {v₁ v₂ : Violation} :
      L.Violations v₁ v₂ → Errors (.malformed p₁ v₁) (.malformed p₂ v₂)
  | other {e : EvalError} : (∀ p v, e ≠ .malformed p v) → Errors e e

/-- **Results that go together**: related values in states that go together, or errors that go
together in such states. -/
inductive Outcome (R : α → α → Prop) :
    EStateM.Result EvalError (Running σ) α → EStateM.Result EvalError (Running σ) α → Prop
  | ok {a₁ a₂ : α} {t₁ t₂ : Running σ} :
      R a₁ a₂ → L.Joined t₁ t₂ → Outcome R (.ok a₁ t₁) (.ok a₂ t₂)
  | error {e₁ e₂ : EvalError} {t₁ t₂ : Running σ} :
      L.Errors e₁ e₂ → L.Joined t₁ t₂ → Outcome R (.error e₁ t₁) (.error e₂ t₂)

/-- **Scanners that come to the same** in texts that are read alike. -/
def Alike (R : α → α → Prop) (m₁ m₂ : Scanner σ α) : Prop :=
  ∀ s₁ s₂, L.Joined s₁ s₂ → L.Outcome R (m₁ s₁) (m₂ s₂)

/-- **Environments that find the same objects** under names that count as the same, from the objects
that a predicate singles out; what they find there is singled out again. -/
structure Finds (env : Env ω σ) (good : ω → Prop) : Prop where
  context : good env.context
  member : ∀ {object n₁ n₂}, good object → L.Names n₁ n₂ →
    env.model.member object n₁ = env.model.member object n₂
  closed : ∀ {object name h found}, good object →
    (env.model.member object name h).1 = some found → good found

variable {L}

/-! ## Sequences and single steps -/

namespace Outcome

/-- **Sequences go together** if their first parts do, and their second parts from states that go
together. -/
protected lemma bind {R : α → α → Prop} {S : β → β → Prop} {m₁ m₂ : Scanner σ α}
    {f₁ f₂ : α → Scanner σ β} {s₁ s₂ : Running σ} (h : L.Outcome R (m₁ s₁) (m₂ s₂))
    (hf : ∀ a₁ a₂, R a₁ a₂ → L.Alike S (f₁ a₁) (f₂ a₂)) :
    L.Outcome S ((m₁ >>= f₁) s₁) ((m₂ >>= f₂) s₂) := by
  rw [bind_apply, bind_apply]
  generalize m₁ s₁ = r₁ at h ⊢
  generalize m₂ s₂ = r₂ at h ⊢
  cases h with
  | ok ha ht => exact hf _ _ ha _ _ ht
  | error he ht => exact .error he ht

/-- Computing with a value keeps results together. -/
protected lemma map {R : α → α → Prop} {m₁ m₂ : Scanner σ α} {s₁ s₂ : Running σ}
    (h : L.Outcome R (m₁ s₁) (m₂ s₂)) {f : α → β} (hf : ∀ a₁ a₂, R a₁ a₂ → f a₁ = f a₂) :
    L.Outcome (· = ·) ((m₁ >>= fun a => pure (f a)) s₁) ((m₂ >>= fun a => pure (f a)) s₂) :=
  h.bind fun a₁ a₂ ha _ _ ht => .ok (hf a₁ a₂ ha) ht

end Outcome

namespace Alike

/-- The same value is given. -/
protected lemma pure (a : α) : L.Alike (· = ·) (pure a : Scanner σ α) (pure a) :=
  fun _ _ hs => .ok rfl hs

/-- Sequences come to the same if both of their parts do. -/
protected lemma bind {R : α → α → Prop} {S : β → β → Prop} {m₁ m₂ : Scanner σ α}
    {f₁ f₂ : α → Scanner σ β} (hm : L.Alike R m₁ m₂)
    (hf : ∀ a₁ a₂, R a₁ a₂ → L.Alike S (f₁ a₁) (f₂ a₂)) : L.Alike S (m₁ >>= f₁) (m₂ >>= f₂) :=
  fun s₁ s₂ hs => (hm s₁ s₂ hs).bind hf

/-- Sequences come to the same if both of their parts do, the first giving the same value. -/
protected lemma andThen {R : β → β → Prop} {m : Scanner σ α} {f : α → Scanner σ β}
    (hm : L.Alike (· = ·) m m) (hf : ∀ a, L.Alike R (f a) (f a)) :
    L.Alike R (m >>= f) (m >>= f) := by
  refine hm.bind ?_
  rintro a _ rfl
  exact hf a

/-- An error that tells no position stops both runs. -/
protected lemma throw {R : α → α → Prop} {e : EvalError} (he : ∀ p v, e ≠ .malformed p v) :
    L.Alike R (throw e : Scanner σ α) (throw e) :=
  fun _ _ hs => .error (.other he) hs

/-- Violations that go together stop both runs. -/
protected lemma violations {R : α → α → Prop} {v₁ v₂ : Violation} (hv : L.Violations v₁ v₂) :
    L.Alike R (fail v₁ : Scanner σ α) (fail v₂) :=
  fun _ _ hs => .error (.malformed hv) hs

/-- A violation stops both runs. -/
protected lemma fail {R : α → α → Prop} (v : Violation) :
    L.Alike R (fail v : Scanner σ α) (fail v) :=
  .violations (.refl v)

/-- The same call is made on the host. -/
protected lemma onHost (call : StateM σ α) : L.Alike (· = ·) (onHost call) (onHost call) := by
  intro s₁ s₂ hs
  rw [onHost_apply, onHost_apply, hs.host]
  exact .ok rfl ⟨hs.ahead, hs.depth, rfl⟩

/-- Blanks are moved over in both runs. -/
protected lemma skipBlanks : L.Alike (· = ·) (skipBlanks : Scanner σ Unit) skipBlanks :=
  fun _ _ hs => .ok rfl ⟨L.settle hs.ahead, hs.depth, hs.host⟩

/-- **A character is accepted in both runs or in neither**, unless it is a blank or a letter. -/
protected lemma accept {c : Char} (hblank : Text.isBlank c = false) (halpha : c.isAlpha = false) :
    L.Alike (· = ·) (accept c : Scanner σ Bool) (accept c) := by
  rintro ⟨⟨⟨p₁, t₁⟩, d⟩, h⟩ ⟨⟨⟨p₂, t₂⟩, d₂⟩, h₂⟩ hs
  obtain rfl : d = d₂ := hs.depth
  obtain rfl : h = h₂ := hs.host
  have hseen := L.seen hs.ahead
  cases hseen with
  | gap hg₁ hg₂ =>
    have hne {t : List Char} (ht : Gap t) : ∀ x ∈ t.head?, x ≠ c :=
      fun x hx => Text.ne_of_isBlank (ht x hx) hblank
    rw [accept_of_head (hne hg₁), accept_of_head (hne hg₂)]
    exact .ok rfl hs
  | @same x u₁ u₂ hx _ hu =>
    by_cases hxc : x = c
    · subst hxc
      rw [accept_cons, accept_cons]
      exact .ok rfl ⟨hu, rfl, rfl⟩
    · have hne {u : List Char} : ∀ y ∈ (x :: u).head?, y ≠ c := by
        rintro y ⟨⟩
        exact hxc
      rw [accept_of_head hne, accept_of_head hne]
      exact .ok rfl hs
  | @letters x₁ x₂ u₁ u₂ hx₁ hx₂ _ _ =>
    have hne {x : Char} {u : List Char} (hx : x.isAlpha = true) : ∀ y ∈ (x :: u).head?, y ≠ c := by
      rintro y ⟨⟩
      exact Text.ne_of_isAlpha hx halpha
    rw [accept_of_head (hne hx₁), accept_of_head (hne hx₂)]
    exact .ok rfl hs

end Alike

/-! ## Runs of characters -/

/-- **A run is taken of characters that count as the same**, and what lies behind it is read alike;
no blank may belong to the run, and either all letters or none.

**Proof sketch.** Induction on the run of the first text. -/
lemma takeWhile_alike {p : Char → Bool} (hblank : ∀ c, Text.isBlank c = true → p c = false)
    (hletter : ∀ c, c.isAlpha = true → p c = true) {t₁ t₂ : List Char} (h : L.ahead t₁ t₂) :
    List.Forall₂ L.chars (t₁.takeWhile p) (t₂.takeWhile p) ∧
      L.ahead (t₁.dropWhile p) (t₂.dropWhile p) := by
  have hgap {t₁ t₂ : List Char} (hg₁ : Gap t₁) (hg₂ : Gap t₂) (h : L.ahead t₁ t₂) :
      List.Forall₂ L.chars (t₁.takeWhile p) (t₂.takeWhile p) ∧
        L.ahead (t₁.dropWhile p) (t₂.dropWhile p) := by
    obtain ⟨htake₁, hdrop₁⟩ := hg₁.takeWhile_eq hblank
    obtain ⟨htake₂, hdrop₂⟩ := hg₂.takeWhile_eq hblank
    rw [htake₁, htake₂, hdrop₁, hdrop₂]
    exact ⟨.nil, h⟩
  induction t₁ generalizing t₂ with
  | nil =>
    cases L.seen h with
    | gap hg₁ hg₂ => exact hgap hg₁ hg₂ h
  | cons c u ih =>
    cases L.seen h with
    | gap hg₁ hg₂ => exact hgap hg₁ hg₂ h
    | same _ hchars hahead =>
      by_cases hc : p c = true
      · obtain ⟨hnames, hbehind⟩ := ih hahead
        simp only [List.takeWhile_cons, List.dropWhile_cons, hc, if_true]
        exact ⟨.cons hchars hnames, hbehind⟩
      · simpa [hc] using h
    | @letters _ c₂ _ u₂ h₁ h₂ hchars hahead =>
      obtain ⟨hnames, hbehind⟩ := ih hahead
      simp only [List.takeWhile_cons, List.dropWhile_cons, hletter c h₁, hletter c₂ h₂, if_true]
      exact ⟨.cons hchars hnames, hbehind⟩

/-- A run is taken of characters that count as the same. -/
protected lemma Alike.takeRun {p : Char → Bool}
    (hblank : ∀ c, Text.isBlank c = true → p c = false)
    (hletter : ∀ c, c.isAlpha = true → p c = true) :
    L.Alike (List.Forall₂ L.chars) (takeRun p : Scanner σ (List Char)) (takeRun p) := by
  intro s₁ s₂ hs
  obtain ⟨hrun, hbehind⟩ := takeWhile_alike hblank hletter hs.ahead
  rw [takeRun_apply, takeRun_apply]
  exact .ok hrun ⟨hbehind, hs.depth, hs.host⟩

/-! ## Literals -/

/-- A gap ends a literal. -/
lemma scanFrom_gap {t : List Char} (hg : Gap t) (inFraction : Bool) (l : Literal) (p : Nat) :
    Literal.scanFrom inFraction l p t = .done l ⟨p, t⟩ :=
  Literal.scanFrom_stop hg.followsOperand.not_isDigit hg.followsOperand.ne_point inFraction l p

/-- A letter of ASCII ends a literal. -/
lemma scanFrom_letter {c : Char} (hc : c.isAlpha = true) (u : List Char) (inFraction : Bool)
    (l : Literal) (p : Nat) :
    Literal.scanFrom inFraction l p (c :: u) = .done l ⟨p, c :: u⟩ := by
  have hdigit : ∀ x ∈ (c :: u).head?, x.isDigit = false := by
    rintro _ ⟨⟩
    exact Text.isDigit_of_isAlpha hc
  have hpoint : ∀ x ∈ (c :: u).head?, x ≠ '.' := by
    rintro _ ⟨⟩
    exact Text.ne_of_isAlpha hc (by decide)
  exact Literal.scanFrom_stop hdigit hpoint inFraction l p

/-- Scans of literals that go together: the same literal or the same violation, and what lies behind
is read alike. -/
inductive Scans (L : Likeness) : Literal.Scan → Literal.Scan → Prop
  | done {literal : Literal} {c₁ c₂ : Cursor} :
      L.ahead c₁.rest c₂.rest → Scans L (.done literal c₁) (.done literal c₂)
  | refused {v : Violation} {c₁ c₂ : Cursor} :
      L.ahead c₁.rest c₂.rest → Scans L (.refused v c₁) (.refused v c₂)

/-- **The rest of a literal is scanned alike.**

**Proof sketch.** Induction on the first text. In a gap and in front of a letter both scans stop;
in front of the same character they do the same. -/
lemma scanFrom_alike (inFraction : Bool) (l : Literal) (p₁ p₂ : Nat) {t₁ t₂ : List Char}
    (h : L.ahead t₁ t₂) :
    L.Scans (Literal.scanFrom inFraction l p₁ t₁) (Literal.scanFrom inFraction l p₂ t₂) := by
  induction t₁ generalizing inFraction l p₁ p₂ t₂ with
  | nil =>
    cases L.seen h with
    | gap hg₁ hg₂ =>
      rw [scanFrom_gap hg₁, scanFrom_gap hg₂]
      exact .done h
  | cons c u ih =>
    cases L.seen h with
    | gap hg₁ hg₂ =>
      rw [scanFrom_gap hg₁, scanFrom_gap hg₂]
      exact .done h
    | letters h₁ h₂ _ _ =>
      rw [scanFrom_letter h₁, scanFrom_letter h₂]
      exact .done h
    | same _ _ hahead =>
      simp only [Literal.scanFrom]
      split_ifs
      · exact .refused h
      · exact ih _ _ _ _ hahead
      · exact ih _ _ _ _ hahead
      · exact ih _ _ _ _ hahead
      · exact .refused h
      · exact .done h

/-- **A literal comes to the same.** -/
protected lemma Alike.number : L.Alike (· = ·) (number : Scanner σ Float) number := by
  intro s₁ s₂ hs
  have hscan : L.Scans (Literal.scan s₁.cursor) (Literal.scan s₂.cursor) :=
    scanFrom_alike false .empty _ _ hs.ahead
  rw [number_apply, number_apply]
  generalize Literal.scan s₁.cursor = r₁ at hscan ⊢
  generalize Literal.scan s₂.cursor = r₂ at hscan ⊢
  cases hscan with
  | done hahead => exact .ok rfl ⟨hahead, hs.depth, hs.host⟩
  | refused hahead => exact .error (.malformed (.refl _)) ⟨hahead, hs.depth, hs.host⟩

/-! ## Operators -/

/-- No operator starts with a letter. -/
lemma read?_of_isAlpha {c : Char} (hc : c.isAlpha = true) (next : Option Char) :
    Operator.read? c next = none := by
  unfold Operator.read?
  split <;> first | rfl | exact absurd hc (by decide)

/-- **A character that is no letter** comes next in both texts or in neither. -/
lemma head?_eq_iff {t₁ t₂ : List Char} (h : L.ahead t₁ t₂) {x : Char}
    (hblank : Text.isBlank x = false) (halpha : x.isAlpha = false) :
    t₁.head? = some x ↔ t₂.head? = some x := by
  cases L.seen h with
  | gap hg₁ hg₂ => simp only [hg₁.head_ne hblank, hg₂.head_ne hblank]
  | same => rfl
  | letters h₁ h₂ =>
    simp only [List.head?_cons, Option.some.injEq, Text.ne_of_isAlpha h₁ halpha,
      Text.ne_of_isAlpha h₂ halpha]

/-- **An operator that starts with the same character is the same**, and equally wide. -/
lemma read?_eq {t₁ t₂ : List Char} (h : L.ahead t₁ t₂) (c : Char) :
    Operator.read? c t₁.head? = Operator.read? c t₂.head? := by
  have hequal := propext (head?_eq_iff h (x := '=') (by decide) (by decide))
  have hbar := propext (head?_eq_iff h (x := '|') (by decide) (by decide))
  have hand := propext (head?_eq_iff h (x := '&') (by decide) (by decide))
  unfold Operator.read?
  simp only [hequal, hbar, hand]

/-- The second character of an operator is no blank. -/
lemma second_of_mem_spellings {op : Operator} {c x : Char} (h : [c, x] ∈ op.spellings) :
    Text.isBlank x = false := by
  have hx : x = '=' ∨ x = '|' ∨ x = '&' := by cases op <;> simp_all [Operator.spellings]
  rcases hx with rfl | rfl | rfl <;> decide

/-- **An operator that starts with the same character comes to the same.** -/
lemma operator_same {c : Char} {p₁ p₂ d : Nat} {u₁ u₂ : List Char} {h : σ}
    (hhere : L.ahead (c :: u₁) (c :: u₂)) (hnext : L.ahead u₁ u₂) :
    L.Outcome (· = ·) (operator c (.facing p₁ (c :: u₁) d h))
      (operator c (.facing p₂ (c :: u₂) d h)) := by
  have hread : Operator.read? c (Cursor.next ⟨p₁, c :: u₁⟩) =
      Operator.read? c (Cursor.next ⟨p₂, c :: u₂⟩) := read?_eq hnext c
  rw [operator_apply, operator_apply, hread]
  cases hop : Operator.read? c (Cursor.next ⟨p₂, c :: u₂⟩) with
  | none => exact .error (.malformed (.refl _)) ⟨hhere, rfl, rfl⟩
  | some found =>
    obtain ⟨op, width⟩ := found
    rcases Operator.spelling_of_read? hop with ⟨rfl, -⟩ | ⟨x, hx, rfl, hmem⟩
    · exact .ok rfl ⟨hnext, rfl, rfl⟩
    · -- the second character is no blank, so it is there in both texts
      have hx₂ : u₂.head? = some x := hx
      have hbehind : L.ahead u₁.tail u₂.tail := by
        cases L.seen hnext with
        | gap _ hg₂ =>
          exact absurd hx₂ (hg₂.head_ne (second_of_mem_spellings hmem))
        | same _ _ hahead => exact hahead
        | letters _ _ _ hahead => exact hahead
      refine .ok rfl ⟨?_, rfl, rfl⟩
      show L.ahead ((c :: u₁).drop 2) ((c :: u₂).drop 2)
      rwa [List.drop_succ_cons, List.drop_succ_cons, List.drop_one, List.drop_one]

/-- No operator is read in front of letters. -/
lemma operator_letters {c₁ c₂ : Char} (h₁ : c₁.isAlpha = true) (h₂ : c₂.isAlpha = true)
    (hchars : L.chars c₁ c₂) {s₁ s₂ : Running σ} (hs : L.Joined s₁ s₂) :
    L.Outcome (· = ·) (operator c₁ s₁) (operator c₂ s₂) := by
  rw [operator_apply, operator_apply, read?_of_isAlpha h₁, read?_of_isAlpha h₂]
  exact .error (.malformed (.notOperator hchars)) hs

/-! ## Paths -/

/-- A path ends in a gap. -/
lemma path_gap {t : List Char} (hg : Gap t) (seen : List Char) (p : Nat) :
    Path.scanFrom seen p t = Path.scanFrom.close seen ⟨p, t⟩ := by
  cases t with
  | nil => rfl
  | cons c u =>
    have hc : Text.isBlank c = true := hg c rfl
    have hpoint : c ≠ '.' := Text.ne_of_isBlank hc (by decide)
    simp [Path.scanFrom, Text.isWordChar_of_isBlank hc, hpoint]

/-- **Paths that go together**: equally many names that count as the same, and what lies behind is
read alike. -/
structure Paths (L : Likeness) (path₁ path₂ : Path) : Prop where
  names : List.Forall₂ L.Names path₁.names path₂.names
  wellFormed : path₁.wellFormed = path₂.wellFormed
  stop : L.ahead path₁.stop.rest path₂.stop.rest

/-- Texts whose characters count as the same are the characters of such names. -/
lemma names_reverse {seen₁ seen₂ : List Char} (h : List.Forall₂ L.chars seen₁ seen₂) :
    L.Names (String.ofList seen₁.reverse) (String.ofList seen₂.reverse) := by
  rw [Names, String.toList_ofList, String.toList_ofList]
  exact List.forall₂_reverse_iff.mpr h

/-- Paths end alike behind their last names. -/
lemma close_alike {seen₁ seen₂ : List Char} (hseen : List.Forall₂ L.chars seen₁ seen₂)
    {c₁ c₂ : Cursor} (h : L.ahead c₁.rest c₂.rest) :
    L.Paths (Path.scanFrom.close seen₁ c₁) (Path.scanFrom.close seen₂ c₂) := by
  unfold Path.scanFrom.close
  cases hseen with
  | nil => exact ⟨.nil, rfl, h⟩
  | cons hc hrest => exact ⟨.cons (names_reverse (.cons hc hrest)) .nil, rfl, h⟩

/-- **The rest of a path is scanned alike.**

**Proof sketch.** Induction on the first text. A gap ends the path; letters and other characters of
names prolong the current name; a point behind a name starts the next one. -/
lemma path_alike {seen₁ seen₂ : List Char} (hseen : List.Forall₂ L.chars seen₁ seen₂)
    (p₁ p₂ : Nat) {t₁ t₂ : List Char} (h : L.ahead t₁ t₂) :
    L.Paths (Path.scanFrom seen₁ p₁ t₁) (Path.scanFrom seen₂ p₂ t₂) := by
  induction t₁ generalizing seen₁ seen₂ p₁ p₂ t₂ with
  | nil =>
    cases L.seen h with
    | gap hg₁ hg₂ =>
      rw [path_gap hg₁, path_gap hg₂]
      exact close_alike hseen h
  | cons c u ih =>
    cases L.seen h with
    | gap hg₁ hg₂ =>
      rw [path_gap hg₁, path_gap hg₂]
      exact close_alike hseen h
    | letters h₁ h₂ hchars hahead =>
      have hword {x : Char} (hx : x.isAlpha = true) : Text.isWordChar x = true :=
        Text.isWordChar_of_isAlphanum (Text.isAlphanum_of_isAlpha hx)
      rw [Path.scanFrom, Path.scanFrom, if_pos (hword h₁), if_pos (hword h₂)]
      exact ih (.cons hchars hseen) _ _ hahead
    | same _ hchars hahead =>
      have hempty : seen₁ = [] ↔ seen₂ = [] := by cases hseen <;> simp
      rw [Path.scanFrom, Path.scanFrom]
      by_cases hword : Text.isWordChar c = true
      · rw [if_pos hword, if_pos hword]
        exact ih (.cons hchars hseen) _ _ hahead
      rw [if_neg hword, if_neg hword]
      by_cases hpoint : c = '.' ∧ seen₁ ≠ []
      · rw [if_pos hpoint, if_pos ⟨hpoint.1, fun h => hpoint.2 (hempty.mpr h)⟩]
        have hnone : List.Forall₂ L.chars [] [] := .nil
        obtain ⟨hnames, hwf, hstop⟩ := ih hnone (p₁ + 1) (p₂ + 1) hahead
        exact ⟨.cons (names_reverse hseen) hnames, hwf, hstop⟩
      · rw [if_neg hpoint, if_neg fun h => hpoint ⟨h.1, fun h' => h.2 (hempty.mp h')⟩]
        exact close_alike hseen h

/-! ## References -/

section

variable {env : Env ω σ} {good : ω → Prop} (hfinds : L.Finds env good)

include hfinds in
/-- **The same object is found at the end of paths** whose names count as the same. -/
lemma follow_eq {names₁ names₂ : List String} (hnames : List.Forall₂ L.Names names₁ names₂)
    {target : Option ω} (htarget : ∀ object ∈ target, good object) :
    env.model.follow target names₁ = env.model.follow target names₂ := by
  induction hnames generalizing target with
  | nil => rfl
  | cons hname _ ih =>
    cases target with
    | none => rfl
    | some object =>
      have hobject : good object := htarget object rfl
      funext h
      show env.model.follow (env.model.member object _ h).1 _ (env.model.member object _ h).2 =
        env.model.follow (env.model.member object _ h).1 _ (env.model.member object _ h).2
      rw [hfinds.member hobject hname]
      exact congrFun (ih fun found hfound => hfinds.closed hobject hfound) _

/-- Looking up a path comes to the same. -/
protected lemma Alike.lookUp (target : Option ω) (names : List String) (wellFormed : Bool) :
    L.Alike (· = ·) (lookUp env target names wellFormed) (lookUp env target names wellFormed) := by
  refine .andThen (.onHost _) fun found => ?_
  split
  · cases found
    · exact .pure _
    · exact .onHost _
  · exact .fail _

include hfinds in
/-- **Paths come to the same** from the same target. -/
protected lemma Alike.memberPath {target : Option ω} (htarget : ∀ object ∈ target, good object) :
    L.Alike (· = ·) (memberPath env target) (memberPath env target) := by
  intro s₁ s₂ hs
  obtain ⟨hnames, hwf, hstop⟩ : L.Paths (Path.scan s₁.cursor) (Path.scan s₂.cursor) :=
    path_alike .nil _ _ hs.ahead
  rw [memberPath_eq, memberPath_eq, hwf]
  have hlook : lookUp env target (Path.scan s₁.cursor).names =
      lookUp env target (Path.scan s₂.cursor).names := by
    unfold Scanner.lookUp
    rw [follow_eq hfinds hnames htarget]
  rw [hlook]
  exact Alike.lookUp target _ _ _ _ ⟨hstop, hs.depth, hs.host⟩

/-- Names of constants come to the same. -/
protected lemma Alike.namedConstant (env : Env ω σ) :
    L.Alike (· = ·) (namedConstant env) (namedConstant env) := by
  refine .andThen (.accept (by decide) (by decide)) fun negative => ?_
  refine .bind (.takeRun (fun _ => Text.isWordChar_of_isBlank) fun c hc => ?_) ?_
  · exact Text.isWordChar_of_isAlphanum (Text.isAlphanum_of_isAlpha hc)
  · intro name₁ name₂ hnames
    rw [L.lowerName_eq hnames]
    exact .pure _

/-- A mark in front of a gap stands for the context. -/
lemma reference_gap (env : Env ω σ) {s : Running σ} (hg : Gap s.cursor.rest) :
    reference env s = wholeContext env s := by
  rw [reference_apply]
  obtain ⟨⟨⟨p, t⟩, d⟩, h⟩ := s
  cases t with
  | nil => rfl
  | cons c u =>
    have hends : endsOperand c = true := hg.followsOperand c rfl
    have hminus : c ≠ '-' := Text.ne_of_isBlank (hg c rfl) (by decide)
    simp [Cursor.current, hends, hminus]

/-- A mark in front of a letter stands before the name of a constant. -/
lemma reference_letter (env : Env ω σ) {c : Char} (hc : c.isAlpha = true) (p : Nat)
    (u : List Char) (d : Nat) (h : σ) :
    reference env (.facing p (c :: u) d h) = namedConstant env (.facing p (c :: u) d h) := by
  have hword : Text.isWordChar c = true :=
    Text.isWordChar_of_isAlphanum (Text.isAlphanum_of_isAlpha hc)
  have hends : endsOperand c = false := by
    by_contra h
    rw [isWordChar_of_endsOperand (Bool.not_eq_false _ ▸ h)] at hword
    exact absurd hword (by simp)
  have hne : c ≠ '-' ∧ c ≠ '.' ∧ c ≠ '(' :=
    ⟨Text.ne_of_isAlpha hc (by decide), Text.ne_of_isAlpha hc (by decide),
      Text.ne_of_isAlpha hc (by decide)⟩
  rw [reference_apply]
  simp [Cursor.current, hends, hne, hword]

/-- A letter comes next in both texts or in neither. -/
lemma any_isAlpha_eq {t₁ t₂ : List Char} (h : L.ahead t₁ t₂) :
    t₁.head?.any Char.isAlpha = t₂.head?.any Char.isAlpha := by
  have hgap {t : List Char} (hg : Gap t) : t.head?.any Char.isAlpha = false := by
    cases t with
    | nil => rfl
    | cons c u =>
      by_contra hc
      have hc' : c.isAlpha = true := by simpa using hc
      have hblank := hg c rfl
      rw [Text.isBlank_of_isAlphanum (Text.isAlphanum_of_isAlpha hc')] at hblank
      exact absurd hblank (by simp)
  cases L.seen h with
  | gap hg₁ hg₂ => rw [hgap hg₁, hgap hg₂]
  | same => rfl
  | letters h₁ h₂ =>
    rw [List.head?_cons, List.head?_cons, Option.any_some, Option.any_some, h₁, h₂]

include hfinds in
/-- **References come to the same** where no type name stands behind the mark. -/
lemma reference_alike {s₁ s₂ : Running σ} (hs : L.Joined s₁ s₂)
    (hopen : s₁.cursor.rest.head? ≠ some '(') :
    L.Outcome (· = ·) (reference env s₁) (reference env s₂) := by
  obtain ⟨⟨⟨p₁, t₁⟩, d⟩, h⟩ := s₁
  obtain ⟨⟨⟨p₂, t₂⟩, d₂⟩, h₂⟩ := s₂
  obtain rfl : d = d₂ := hs.depth
  obtain rfl : h = h₂ := hs.host
  have hwhole : L.Alike (· = ·) (wholeContext env) (wholeContext env) := .onHost _
  cases L.seen hs.ahead with
  | gap hg₁ hg₂ =>
    rw [reference_gap env hg₁, reference_gap env hg₂]
    exact hwhole _ _ hs
  | letters h₁ h₂ =>
    rw [reference_letter env h₁, reference_letter env h₂]
    exact Alike.namedConstant env _ _ hs
  | @same c u₁ u₂ hblank hchars hahead =>
    have hnext : (Cursor.next ⟨p₁, c :: u₁⟩).any Char.isAlpha =
        (Cursor.next ⟨p₂, c :: u₂⟩).any Char.isAlpha := any_isAlpha_eq hahead
    rw [reference_apply, reference_apply, hnext]
    show L.Outcome _ ((if _ then _ else _ : Scanner σ Float) _)
      ((if _ then _ else _ : Scanner σ Float) _)
    split_ifs with hminus hends hpoint hparen hword
    · exact Alike.namedConstant env _ _ hs
    · exact hwhole _ _ hs
    · have hcontext : ∀ object ∈ some env.context, good object := by
        rintro _ ⟨⟩
        exact hfinds.context
      exact Alike.memberPath hfinds hcontext (.facing (p₁ + 1) u₁ d h) (.facing (p₂ + 1) u₂ d h)
        ⟨hahead, rfl, rfl⟩
    · exact absurd (congrArg some hparen) hopen
    · exact Alike.namedConstant env _ _ hs
    · exact Alike.fail (.notReference c) _ _ hs

end

end Likeness

end Formula
