import Formula.Proofs.Pairing

set_option relaxedAutoImplicit false
set_option autoImplicit false

/-!
# Stretches that two texts have in common

Two texts may have a stretch in common, at the same place or at different ones, and what follows it
may differ but for its first character. Two cursors that stand abreast in the stretch see the same,
one character beyond it at most; so what is scanned from there is the same, or the scan takes
characters from behind the stretch.

## Main definitions

* `Formula.Overlap` — a stretch that two texts have in common.
* `Formula.Overlap.Abreast` — cursors at the same place of the stretch.
* `Formula.Overlap.Crosses` — where a scan stops that has left the stretch.

## Main results

* `Formula.Overlap.Abreast.run`, `Formula.Overlap.Abreast.literal`, `Formula.Overlap.Abreast.path` —
  runs, literals and paths are the same unless they leave the stretch.
-/

namespace Formula

/-- A run goes on behind a character of it. -/
lemma Cursor.skipWhile_cons {p : Char → Bool} {c : Char} (hc : p c = true) (position : Nat)
    (cs : List Char) : skipWhile p ⟨position, c :: cs⟩ = skipWhile p ⟨position + 1, cs⟩ := by
  simp only [skipWhile, run, List.takeWhile_cons, List.dropWhile_cons, hc, if_true]
  rw [position_cons]

/-- A run ends in front of a character that is not in it. -/
lemma Cursor.skipWhile_of_neg {p : Char → Bool} {c : Char} (hc : p c = false) (position : Nat)
    (cs : List Char) : skipWhile p ⟨position, c :: cs⟩ = ⟨position, c :: cs⟩ := by
  simp [skipWhile, run, hc]

/-- **A stretch that two texts have in common**, where it starts in each of them, and what follows
it. The first characters behind it are the same as well. -/
structure Overlap where
  /-- The stretch. -/
  text : List Char
  /-- Where it starts in the first text. -/
  start₁ : Nat
  /-- Where it starts in the second text. -/
  start₂ : Nat
  /-- What follows it in the first text. -/
  rest₁ : List Char
  /-- What follows it in the second text. -/
  rest₂ : List Char
  /-- Behind it the same character comes next, or none. -/
  head : rest₁.head? = rest₂.head?

namespace Overlap

/-- The same text at two places. -/
def shifted (text : List Char) (start₁ start₂ : Nat) : Overlap :=
  ⟨text, start₁, start₂, [], [], rfl⟩

/-- **Cursors at the same place of a stretch.** -/
def Abreast (O : Overlap) (c₁ c₂ : Cursor) : Prop :=
  ∃ read ahead, O.text = read ++ ahead ∧ c₁ = ⟨O.start₁ + read.length, ahead ++ O.rest₁⟩ ∧
    c₂ = ⟨O.start₂ + read.length, ahead ++ O.rest₂⟩

/-- **Where a scan stops that has left the stretch**: it takes the character behind it. -/
def Crosses (O : Overlap) (takes : Char → Bool) (stop : Cursor) : Prop :=
  (∃ c ∈ O.rest₁.head?, takes c = true) ∧ stop.rest.length < O.rest₁.length

variable {O : Overlap} {c₁ c₂ : Cursor}

/-- Nothing follows the stretch, or the same character does. -/
lemma rest_cases (O : Overlap) :
    (O.rest₁ = [] ∧ O.rest₂ = []) ∨ ∃ c cs₁ cs₂, O.rest₁ = c :: cs₁ ∧ O.rest₂ = c :: cs₂ := by
  have hhead := O.head
  cases h₁ : O.rest₁ with
  | nil =>
    rw [h₁] at hhead
    exact .inl ⟨rfl, List.head?_eq_none_iff.mp hhead.symm⟩
  | cons c cs₁ =>
    rw [h₁] at hhead
    obtain ⟨cs₂, h₂⟩ := List.head?_eq_some_iff.mp hhead.symm
    exact .inr ⟨c, cs₁, cs₂, rfl, h₂⟩

/-- A scan has left the stretch if it goes on behind the first character that follows it. -/
lemma crosses {takes : Char → Bool} {c : Char} {cs : List Char} {stop : Cursor}
    (hrest : O.rest₁ = c :: cs) (hc : takes c = true) (hstop : stop.rest <:+ cs) :
    O.Crosses takes stop := by
  refine ⟨⟨c, by rw [hrest]; rfl, hc⟩, ?_⟩
  rw [hrest, List.length_cons]
  exact Nat.lt_succ_of_le hstop.length_le

namespace Abreast

/-! ## Single characters -/

/-- Cursors abreast tell positions at the same distance from where the stretch starts. -/
lemma position (h : O.Abreast c₁ c₂) :
    ∃ i ≤ O.text.length, c₁.position = O.start₁ + i ∧ c₂.position = O.start₂ + i := by
  obtain ⟨read, ahead, htext, rfl, rfl⟩ := h
  refine ⟨read.length, ?_, rfl, rfl⟩
  rw [htext, List.length_append]
  exact Nat.le_add_right _ _

/-- The character ahead is the same. -/
lemma current (h : O.Abreast c₁ c₂) : c₁.current = c₂.current := by
  obtain ⟨read, ahead, -, rfl, rfl⟩ := h
  cases ahead with
  | nil => exact O.head
  | cons c ahead => rfl

/-- **Cursors abreast stand behind the stretch or move on abreast**, and then they see the same
character behind the one ahead. -/
lemma advance (h : O.Abreast c₁ c₂) :
    (c₁.rest = O.rest₁ ∧ c₂.rest = O.rest₂) ∨
      O.rest₁.length < c₁.rest.length ∧ c₁.next = c₂.next ∧ O.Abreast c₁.advance c₂.advance := by
  obtain ⟨read, _ | ⟨c, ahead⟩, htext, rfl, rfl⟩ := h
  · exact .inl ⟨rfl, rfl⟩
  · have htext' : O.text = (read ++ [c]) ++ ahead := by rw [htext, List.append_assoc]; rfl
    refine .inr ⟨?_, ?_, read ++ [c], ahead, htext', ?_, ?_⟩
    · simp only [List.length_append, List.length_cons]
      omega
    · cases ahead with
      | nil => exact O.head
      | cons a ahead => rfl
    · rw [List.length_append]; rfl
    · rw [List.length_append]; rfl

/-! ## Scans -/

/-- **A run is the same in both texts**, unless it takes the character behind the stretch. -/
lemma run (h : O.Abreast c₁ c₂) (p : Char → Bool) :
    O.Crosses p (c₁.skipWhile p) ∨
      c₁.run p = c₂.run p ∧ O.Abreast (c₁.skipWhile p) (c₂.skipWhile p) := by
  obtain ⟨read, ahead, htext, rfl, rfl⟩ := h
  induction ahead generalizing read with
  | nil =>
    rcases O.rest_cases with ⟨h₁, h₂⟩ | ⟨c, cs₁, cs₂, h₁, h₂⟩
    · refine .inr ⟨?_, read, [], htext, ?_, ?_⟩ <;> simp [h₁, h₂, Cursor.run, Cursor.skipWhile]
    · rw [List.nil_append, List.nil_append, h₁, h₂]
      cases hc : p c with
      | false =>
        rw [Cursor.skipWhile_of_neg hc, Cursor.skipWhile_of_neg hc]
        refine .inr ⟨?_, read, [], htext, ?_, ?_⟩ <;> simp [h₁, h₂, hc, Cursor.run]
      | true =>
        rw [Cursor.skipWhile_cons hc]
        exact .inl (crosses h₁ hc (List.dropWhile_suffix _))
  | cons a ahead ih =>
    rw [List.cons_append, List.cons_append]
    cases ha : p a with
    | false =>
      rw [Cursor.skipWhile_of_neg ha, Cursor.skipWhile_of_neg ha]
      exact .inr ⟨by simp [Cursor.run, ha], read, a :: ahead, htext, rfl, rfl⟩
    | true =>
      have hahead := ih (read ++ [a]) (by rw [htext, List.append_assoc]; rfl)
      rw [Cursor.skipWhile_cons ha, Cursor.skipWhile_cons ha]
      rw [List.length_append] at hahead
      rcases hahead with hcross | ⟨hrun, hskip⟩
      · exact .inl hcross
      · refine .inr ⟨?_, hskip⟩
        simp only [Cursor.run, List.takeWhile_cons, ha, if_true] at hrun ⊢
        rw [hrun]

/-- Scans of a literal that come to the same, with their cursors abreast. -/
inductive SameLiteral (O : Overlap) : Literal.Scan → Literal.Scan → Prop
  | done {l : Literal} {c₁ c₂ : Cursor} : O.Abreast c₁ c₂ → SameLiteral O (.done l c₁) (.done l c₂)
  | refused {v : Violation} {c₁ c₂ : Cursor} :
      O.Abreast c₁ c₂ → SameLiteral O (.refused v c₁) (.refused v c₂)

/-- The characters that a literal may take. -/
def literalTakes (c : Char) : Bool := c = '.' || c.isDigit

/-- **A literal is the same in both texts**, unless it takes the character behind the stretch. -/
lemma literal (h : O.Abreast c₁ c₂) :
    O.Crosses literalTakes (Literal.scan c₁).stop ∨
      SameLiteral O (Literal.scan c₁) (Literal.scan c₂) := by
  obtain ⟨read, ahead, htext, rfl, rfl⟩ := h
  unfold Literal.scan
  generalize Literal.empty = l
  generalize false = inFraction
  dsimp only
  induction ahead generalizing read l inFraction with
  | nil =>
    have hseam : O.Abreast ⟨O.start₁ + read.length, O.rest₁⟩ ⟨O.start₂ + read.length, O.rest₂⟩ :=
      ⟨read, [], htext, rfl, rfl⟩
    rw [List.nil_append, List.nil_append]
    rcases O.rest_cases with ⟨h₁, h₂⟩ | ⟨c, cs₁, cs₂, h₁, h₂⟩
    · rw [h₁, h₂] at hseam ⊢
      exact .inr (.done hseam)
    · have hcross (hc : literalTakes c = true) (inFraction : Bool) (l : Literal) (p : Nat) :
          O.Crosses literalTakes (Literal.scanFrom inFraction l p cs₁).stop :=
        crosses h₁ hc (Literal.suffix_scanFrom _ _ _ _)
      rw [h₁, h₂] at hseam ⊢
      simp only [Literal.scanFrom]
      split_ifs with hpoint hfraction hdigit hfraction hbound
      · exact .inr (.refused hseam)
      · exact .inl (hcross (by simp [literalTakes, hpoint]) _ _ _)
      · exact .inl (hcross (by simp [literalTakes, hdigit]) _ _ _)
      · exact .inl (hcross (by simp [literalTakes, hdigit]) _ _ _)
      · exact .inr (.refused hseam)
      · exact .inr (.done hseam)
  | cons a ahead ih =>
    have hstop : O.Abreast ⟨O.start₁ + read.length, a :: (ahead ++ O.rest₁)⟩
        ⟨O.start₂ + read.length, a :: (ahead ++ O.rest₂)⟩ := ⟨read, a :: ahead, htext, rfl, rfl⟩
    have hahead := ih (read ++ [a]) (by rw [htext, List.append_assoc]; rfl)
    rw [List.length_append] at hahead
    simp only [List.cons_append, Literal.scanFrom]
    split_ifs
    · exact .inr (.refused hstop)
    · exact hahead _ _
    · exact hahead _ _
    · exact hahead _ _
    · exact .inr (.refused hstop)
    · exact .inr (.done hstop)

/-- The characters that a path may take. -/
def pathTakes (c : Char) : Bool := Text.isWordChar c || c = '.'

/-- **A path is the same in both texts**, unless it takes the character behind the stretch. -/
lemma path (h : O.Abreast c₁ c₂) :
    O.Crosses pathTakes (Path.scan c₁).stop ∨
      (Path.scan c₁).names = (Path.scan c₂).names ∧
      (Path.scan c₁).wellFormed = (Path.scan c₂).wellFormed ∧
      O.Abreast (Path.scan c₁).stop (Path.scan c₂).stop := by
  obtain ⟨read, ahead, htext, rfl, rfl⟩ := h
  unfold Path.scan
  generalize [] = seen
  dsimp only
  have hclose (seen : List Char) {d₁ d₂ : Cursor} (h : O.Abreast d₁ d₂) :
      (Path.scanFrom.close seen d₁).names = (Path.scanFrom.close seen d₂).names ∧
      (Path.scanFrom.close seen d₁).wellFormed = (Path.scanFrom.close seen d₂).wellFormed ∧
      O.Abreast (Path.scanFrom.close seen d₁).stop (Path.scanFrom.close seen d₂).stop := by
    unfold Path.scanFrom.close
    split_ifs <;> exact ⟨rfl, rfl, h⟩
  induction ahead generalizing read seen with
  | nil =>
    have hseam : O.Abreast ⟨O.start₁ + read.length, O.rest₁⟩ ⟨O.start₂ + read.length, O.rest₂⟩ :=
      ⟨read, [], htext, rfl, rfl⟩
    rw [List.nil_append, List.nil_append]
    rcases O.rest_cases with ⟨h₁, h₂⟩ | ⟨c, cs₁, cs₂, h₁, h₂⟩
    · rw [h₁, h₂] at hseam ⊢
      exact .inr (hclose seen hseam)
    · rw [h₁, h₂] at hseam ⊢
      simp only [Path.scanFrom]
      split_ifs with hword hpoint
      · exact .inl (crosses h₁ (by simp [pathTakes, hword]) (Path.suffix_scanFrom _ _ _))
      · exact .inl (crosses h₁ (by simp [pathTakes, hpoint.1]) (Path.suffix_scanFrom _ _ _))
      · exact .inr (hclose seen hseam)
  | cons a ahead ih =>
    have hahead := ih (read ++ [a]) (by rw [htext, List.append_assoc]; rfl)
    rw [List.length_append] at hahead
    simp only [List.cons_append, Path.scanFrom]
    split_ifs
    · exact hahead _
    · rcases hahead [] with hcross | ⟨hnames, hwf, hstop⟩
      · exact .inl hcross
      · exact .inr ⟨congrArg (List.cons _) hnames, hwf, hstop⟩
    · exact .inr (hclose seen ⟨read, a :: ahead, htext, rfl, rfl⟩)

end Abreast

end Overlap

end Formula
