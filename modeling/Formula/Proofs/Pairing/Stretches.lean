import Formula.Proofs.Pairing.Operands
import Formula.Proofs.Pairing.Overlap

set_option relaxedAutoImplicit false
set_option autoImplicit false

/-!
# Runs along stretches that two texts have in common

Two runs that stand at the same place of a stretch that their texts have in common stay there
together until they come to its end. Behind it there may be nothing, or text that is no longer
compared, or an opening parenthesis whose contents come to the same. An error in the stretch is
told at the same distance from where it starts.

## Main definitions

* `Formula.Overlap.Joined` — states at the same place of a stretch.
* `Formula.Overlap.Sealed` — what may lie behind a stretch.
* `Formula.Pairing.along` — the pairing of two texts along stretches that they have in common.

## Main results

* `Formula.Pairing.along_respects` — evaluation respects it.
-/

namespace Formula

open Scanner

variable {ω σ α : Type}

namespace Overlap

/-- **States at the same place of a stretch**, with the same open parentheses and the same host. -/
structure Joined (O : Overlap) (s₁ s₂ : Running σ) : Prop where
  /-- The cursors stand at the same place. -/
  abreast : O.Abreast s₁.cursor s₂.cursor
  /-- As many parentheses are open. -/
  depth : s₁.depth = s₂.depth
  /-- The hosts' states are the same. -/
  host : s₁.host = s₂.host

/-- States stay at the same place if their cursors move to the same place. -/
lemma Joined.move {O : Overlap} {s₁ s₂ : Running σ} (hs : O.Joined s₁ s₂) {c₁ c₂ : Cursor}
    (h : O.Abreast c₁ c₂) : O.Joined { s₁ with cursor := c₁ } { s₂ with cursor := c₂ } :=
  ⟨h, hs.depth, hs.host⟩

/-- **What may lie behind a stretch**: nothing; or text that is not compared, since fewer characters
than a margin are left there; or an opening parenthesis that does not start the name of a type. -/
inductive Sealed (O : Overlap) (margin : Nat) : Prop
  | ended : O.rest₁ = [] → Sealed O margin
  | beyond : O.rest₁.length < margin → Sealed O margin
  | hole : O.rest₁.head? = some '(' → ¬ ['$', '('] <:+: O.text ++ ['('] → Sealed O margin

/-- **Errors that are told at the same place** of a stretch, or tell no position. -/
inductive SameError (stretches : Overlap → Prop) : EvalError → EvalError → Prop
  | malformed {O : Overlap} (hO : stretches O) {i : Nat} (hi : i ≤ O.text.length) (v : Violation) :
      SameError stretches (.malformed (O.start₁ + i) v) (.malformed (O.start₂ + i) v)
  | other {e : EvalError} (he : ∀ p v, e ≠ .malformed p v) : SameError stretches e e

namespace Sealed

variable {O : Overlap} {margin : Nat} {takes : Char → Bool} {stop : Cursor}

/-- What has left a stretch is no longer compared, unless it takes parentheses. -/
lemma lt_of_crosses (h : O.Sealed margin) (htakes : takes '(' = false)
    (hstop : O.Crosses takes stop) : stop.rest.length < margin := by
  obtain ⟨⟨c, hc, hct⟩, hlt⟩ := hstop
  cases h with
  | ended hend =>
    rw [hend] at hc
    cases hc
  | beyond hlen => exact hlt.trans hlen
  | hole hopen _ =>
    obtain rfl : '(' = c := Option.some.inj (hopen.symm.trans hc)
    rw [htakes] at hct
    exact absurd hct Bool.false_ne_true

/-- What has left a stretch in which the name of a type starts is no longer compared. -/
lemma lt_of_crosses_of_name (h : O.Sealed margin) (hname : ['$', '('] <:+: O.text ++ ['('])
    (hstop : O.Crosses takes stop) : stop.rest.length < margin := by
  obtain ⟨⟨c, hc, -⟩, hlt⟩ := hstop
  cases h with
  | ended hend =>
    rw [hend] at hc
    cases hc
  | beyond hlen => exact hlt.trans hlen
  | hole _ hmark => exact absurd hname hmark

end Sealed

end Overlap

namespace Pairing

open Overlap

variable {stretches : Overlap → Prop} {margin : Nat} {refused : EvalError → Prop}

/-- **The pairing of two texts along stretches** that they have in common. The first run goes astray
where fewer characters than the margin are left. -/
def along (σ : Type) (stretches : Overlap → Prop) (margin : Nat) (refused : EvalError → Prop) :
    Pairing σ where
  joined s₁ s₂ := margin ≤ s₁.cursor.rest.length ∧ ∃ O, stretches O ∧ O.Joined s₁ s₂
  errors := SameError stretches
  astray s := s.cursor.rest.length < margin
  refused := refused
  astray_of_reaches h hreaches := lt_of_le_of_lt hreaches.rest.length_le h

/-- Values are given together where the cursors have gone on abreast. -/
lemma along_ok {O : Overlap} (hO : stretches O) {s₁ s₂ : Running σ} (hs : O.Joined s₁ s₂) (a : α) :
    (along σ stretches margin refused).Outcome (.ok a s₁) (.ok a s₂) := by
  by_cases hmargin : margin ≤ s₁.cursor.rest.length
  · exact .ok ⟨hmargin, O, hO, hs⟩
  · exact .astray (Nat.lt_of_not_le hmargin)

/-- Runs are taken together from where the cursors stand abreast, unless they leave the stretch. -/
lemma along_run {O : Overlap} (hO : stretches O) {s₁ s₂ : Running σ} (hs : O.Joined s₁ s₂)
    {p : Char → Bool}
    (hcross : ∀ stop, O.Crosses p stop → stop.rest.length < margin) :
    (along σ stretches margin refused).Outcome (takeRun p s₁) (takeRun p s₂) := by
  rw [takeRun_apply, takeRun_apply]
  rcases hs.abreast.run p with hstop | ⟨hrun, hskip⟩
  · exact .astray (hcross _ hstop)
  · rw [hrun]
    exact along_ok hO (hs.move hskip) _

/-- Both runs stop where the cursors stand abreast. -/
lemma along_error {O : Overlap} (hO : stretches O) {s₁ s₂ : Running σ} (hs : O.Joined s₁ s₂)
    (v : Violation) : SameError stretches (.malformed s₁.cursor.position v)
      (.malformed s₂.cursor.position v) := by
  obtain ⟨i, hi, h₁, h₂⟩ := hs.abreast.position
  rw [h₁, h₂]
  exact .malformed hO hi v

section

variable {s₁ s₂ : Running σ} (hsealed : ∀ O, stretches O → O.Sealed margin)
  (hs : (along σ stretches margin refused).joined s₁ s₂)

include hsealed hs

/-- **Paired states move on abreast** over a character that is no opening parenthesis, and see the
same character behind it. -/
lemma along_advance (hopen : s₁.cursor.current ≠ some '(') :
    s₁.cursor.next = s₂.cursor.next ∧
      ∃ O, stretches O ∧ O.Joined { s₁ with cursor := s₁.cursor.advance }
        { s₂ with cursor := s₂.cursor.advance } := by
  obtain ⟨hmargin, O, hO, hs⟩ := hs
  rcases hs.abreast.advance with ⟨h₁, h₂⟩ | ⟨-, hnext, hadvance⟩
  · cases hsealed O hO with
    | ended hend =>
      -- nothing is ahead in either text
      have hend₂ : O.rest₂ = [] := List.head?_eq_none_iff.mp (by rw [← O.head, hend]; rfl)
      rw [hend] at h₁
      rw [hend₂] at h₂
      have hadvance {c : Cursor} (hc : c.rest = []) : c.advance = c := by
        obtain ⟨p, rest⟩ := c
        obtain rfl : rest = [] := hc
        rfl
      refine ⟨by rw [Cursor.next, Cursor.next, h₁, h₂], O, hO, ?_⟩
      rw [hadvance h₁, hadvance h₂]
      exact hs
    | beyond hlen =>
      rw [h₁] at hmargin
      omega
    | hole hhole _ =>
      rw [Cursor.current, h₁] at hopen
      exact absurd hhole hopen
  · exact ⟨hnext, O, hO, hs.move hadvance⟩

/-- Runs that take no opening parenthesis are taken together. -/
lemma along_takeRun {p : Char → Bool} (hp : p '(' = false) :
    (along σ stretches margin refused).Outcome (takeRun p s₁) (takeRun p s₂) := by
  obtain ⟨-, O, hO, hs⟩ := hs
  exact along_run hO hs fun _ hcross => (hsealed O hO).lt_of_crosses hp hcross

/-- Literals are read together. -/
lemma along_number : (along σ stretches margin refused).Outcome (number s₁) (number s₂) := by
  obtain ⟨-, O, hO, hs⟩ := hs
  have hliteral := hs.abreast.literal
  rw [number_apply, number_apply]
  generalize Literal.scan s₁.cursor = r₁ at hliteral ⊢
  generalize Literal.scan s₂.cursor = r₂ at hliteral ⊢
  rcases hliteral with hcross | hsame
  · have hlt := (hsealed O hO).lt_of_crosses (by decide) hcross
    cases r₁ <;> exact .astray hlt
  · cases hsame with
    | done hstop => exact along_ok hO (hs.move hstop) _
    | refused hstop => exact .error (along_error hO (hs.move hstop) _) hs.host

/-- Paths are scanned together. -/
lemma along_path :
    (along σ stretches margin refused).astray { s₁ with cursor := (Path.scan s₁.cursor).stop } ∨
      (Path.scan s₁.cursor).names = (Path.scan s₂.cursor).names ∧
      (Path.scan s₁.cursor).wellFormed = (Path.scan s₂.cursor).wellFormed ∧
      (along σ stretches margin refused).joined
        { s₁ with cursor := (Path.scan s₁.cursor).stop }
        { s₂ with cursor := (Path.scan s₂.cursor).stop } := by
  obtain ⟨-, O, hO, hs⟩ := hs
  rcases hs.abreast.path with hcross | ⟨hnames, hwf, hstop⟩
  · exact .inl ((hsealed O hO).lt_of_crosses (by decide) hcross)
  · by_cases hmargin : margin ≤ (Path.scan s₁.cursor).stop.rest.length
    · exact .inr ⟨hnames, hwf, hmargin, O, hO, hs.move hstop⟩
    · exact .inl (Nat.lt_of_not_le hmargin)

/-- **The names of types are taken together.** Behind a stretch that a type name has left there is
nothing more to compare. -/
lemma along_typeName {cs : List Char} (hrest : s₁.cursor.rest = '$' :: '(' :: cs)
    (p : Char → Bool) :
    (along σ stretches margin refused).Outcome
      (takeRun p { s₁ with cursor := s₁.cursor.advance.advance })
      (takeRun p { s₂ with cursor := s₂.cursor.advance.advance }) := by
  obtain ⟨hmargin, O, hO, hs⟩ := hs
  obtain ⟨read, ahead, htext, h₁, h₂⟩ := hs.abreast
  have hahead : ahead ++ O.rest₁ = '$' :: '(' :: cs := by rw [← hrest, h₁]
  rw [h₁] at hmargin
  rcases ahead with _ | ⟨a, _ | ⟨b, ahead⟩⟩
  · -- no mark stands behind a stretch
    rw [List.nil_append] at hahead
    cases hsealed O hO with
    | ended hend => simp [hend] at hahead
    | beyond hlen => exact absurd hmargin (Nat.not_le_of_lt hlen)
    | hole hhole _ =>
      rw [hahead] at hhole
      exact absurd (Option.some.inj hhole) (by decide)
  · -- the mark is the last character of the stretch
    obtain ⟨rfl, hbehind⟩ : a = '$' ∧ O.rest₁ = '(' :: cs := List.cons.inj hahead
    cases hsealed O hO with
    | ended hend => simp [hend] at hbehind
    | beyond hlen =>
      refine .astray (lt_of_le_of_lt ?_ hlen)
      have hstop : (s₁.cursor.advance.advance.skipWhile p).rest <:+ O.rest₁ := by
        rw [h₁]
        exact (List.dropWhile_suffix p).trans (List.drop_suffix 1 _)
      exact hstop.length_le
    | hole _ hmark =>
      refine absurd ⟨read, [], ?_⟩ hmark
      rw [htext, List.append_nil, List.append_assoc]
      rfl
  · obtain ⟨rfl, htail⟩ := List.cons.inj hahead
    obtain ⟨rfl, -⟩ := List.cons.inj htail
    have hname : ['$', '('] <:+: O.text ++ ['('] :=
      ⟨read, ahead ++ ['('], by rw [htext]; simp⟩
    have hbehind : O.Abreast s₁.cursor.advance.advance s₂.cursor.advance.advance := by
      refine ⟨read ++ ['$', '('], ahead, by rw [htext]; simp, ?_, ?_⟩
      · rw [h₁, List.length_append]
        rfl
      · rw [h₂, List.length_append]
        rfl
    exact along_run hO (hs.move hbehind) fun _ hcross =>
      (hsealed O hO).lt_of_crosses_of_name hname hcross

end

/-- **Evaluation respects a pairing along stretches**, if chains come to the same behind each
opening parenthesis at the end of one. -/
theorem along_respects {env : Env ω σ} (hsealed : ∀ O, stretches O → O.Sealed margin)
    (hhole : ∀ O, stretches O → O.rest₁.head? = some '(' → margin ≤ O.rest₁.length →
      ∀ s₁ s₂ : Running σ, O.Joined s₁ s₂ → s₁.cursor.rest = O.rest₁ → ∀ levels scope,
        (along σ stretches margin refused).Outcome
          (chain (operand env levels) scope s₁.opened)
          (chain (operand env levels) scope s₂.opened)) :
    (along σ stretches margin refused).Respects env where
  depth := fun ⟨_, _, _, hs⟩ => hs.depth
  host := fun ⟨_, _, _, hs⟩ => hs.host
  withDepth := fun ⟨hmargin, O, hO, hs⟩ _ => ⟨hmargin, O, hO, hs.abreast, rfl, hs.host⟩
  withHost := fun ⟨hmargin, O, hO, hs⟩ _ => ⟨hmargin, O, hO, hs.abreast, hs.depth, rfl⟩
  current := fun ⟨_, _, _, hs⟩ => hs.abreast.current
  next := fun hs hopen => (along_advance hsealed hs hopen).1
  malformed := fun ⟨_, _, hO, hs⟩ v => along_error hO hs v
  same := fun he => .other he
  advance := fun hs hopen =>
    let ⟨_, hO, hadvance⟩ := (along_advance hsealed hs hopen).2
    along_ok hO hadvance ()
  takeRun := fun hs _ hp => along_takeRun hsealed hs hp
  number := fun hs => along_number hsealed hs
  path := fun hs => along_path hsealed hs
  typeName := fun hs hrest => along_typeName hsealed hs hrest _
  opened := by
    rintro s₁ s₂ ⟨hmargin, O, hO, hs⟩ hopen
    rcases hs.abreast.advance with ⟨h₁, -⟩ | ⟨-, -, hadvance⟩
    · rw [Cursor.current, h₁] at hopen
      rw [h₁] at hmargin
      exact .inr (.inr (hhole O hO hopen hmargin s₁ s₂ hs h₁))
    · by_cases hleft : margin ≤ s₁.opened.cursor.rest.length
      · exact .inl ⟨hleft, O, hO, hadvance, congrArg (· + 1) hs.depth, hs.host⟩
      · exact .inr (.inl (Nat.lt_of_not_le hleft))

end Pairing

end Formula
