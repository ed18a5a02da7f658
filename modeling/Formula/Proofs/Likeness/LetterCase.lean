import Formula.Proofs.Likeness.Operands

set_option relaxedAutoImplicit false
set_option autoImplicit false

/-!
# Letter case does not matter

Three rules of letter case meet in a formula: the names of functions are brought to lower case while
they are read, those of constants by the rule of all scripts, and members are found by their exact
key first and up to case otherwise. The last rule asks something of the document: where an object
has two keys that are the same up to case, a name may find either. Where none has, texts that differ
in the case of letters of ASCII only are read alike.

## Main definitions

* `Formula.Json.CaseDistinct` — documents in which no object has two keys that are the same up to
  case.
* `Formula.Likeness.upToCase` — texts that are the same up to case are read alike.
* `Formula.SameUpToCase` — the same verdict, told in letters of either case.

## Main results

* `Formula.Json.member?_eq` — in such documents names that are the same up to case find the same.
* `Formula.eval_up_to_case` — texts that are the same up to case have the same verdict.
-/

namespace Formula

open Scanner

variable {σ : Type}

/-! ## Texts up to case -/

namespace Text

/-- **Texts whose characters are the same up to case**, one by one. -/
abbrev Folded (t₁ t₂ : List Char) : Prop :=
  List.Forall₂ (fun c₁ c₂ : Char => c₁.toLower = c₂.toLower) t₁ t₂

/-- Texts are the same up to case when their characters are. -/
lemma lower_eq_iff {t₁ t₂ : List Char} : lower t₁ = lower t₂ ↔ Folded t₁ t₂ := by
  rw [lower, lower, ← List.forall₂_eq_eq_eq, List.forall₂_map_left_iff, List.forall₂_map_right_iff]

/-- Texts put together are the same up to case if their parts are. -/
lemma sameLetters_append {a₁ a₂ b₁ b₂ : String} (ha : sameLetters a₁ a₂ = true)
    (hb : sameLetters b₁ b₂ = true) : sameLetters (a₁ ++ b₁) (a₂ ++ b₂) = true := by
  simp only [sameLetters, beq_iff_eq, lower, String.toList_append, List.map_append] at ha hb ⊢
  rw [ha, hb]

variable {c₁ c₂ : Char} (h : c₁.toLower = c₂.toLower)

include h

/-- Characters that are the same up to case are both blanks or neither. -/
lemma isBlank_eq_of_toLower : isBlank c₁ = isBlank c₂ := by
  rcases eq_or_isAlpha_of_toLower h with rfl | ⟨h₁, h₂⟩
  · rfl
  · rw [isBlank_of_isAlphanum (isAlphanum_of_isAlpha h₁),
      isBlank_of_isAlphanum (isAlphanum_of_isAlpha h₂)]

/-- Characters that are the same up to case are the same unless they are letters. -/
lemma eq_of_toLower {d : Char} (hd : d.isAlpha = false) : c₁ = d ↔ c₂ = d := by
  rcases eq_or_isAlpha_of_toLower h with rfl | ⟨h₁, h₂⟩
  · rfl
  · exact iff_of_false (ne_of_isAlpha h₁ hd) (ne_of_isAlpha h₂ hd)

/-- A digit is the same as what it is the same as up to case. -/
lemma eq_of_isDigit (hdigit : c₁.isDigit = true) : c₁ = c₂ := by
  rcases eq_or_isAlpha_of_toLower h with h | ⟨h₁, -⟩
  · exact h
  · rw [isDigit_of_isAlpha h₁] at hdigit
    exact absurd hdigit (by simp)

end Text

/-! ## Documents without keys that are the same up to case -/

namespace Json

mutual

/-- **A document that tells keys apart by more than case**: no object has two keys that are the same
up to the case of letters of ASCII, at any depth. -/
def CaseDistinct : Json → Prop
  | array items => CaseDistinctItems items
  | object members =>
    CaseDistinctMembers members ∧ (members.map fun m => Text.lower m.1.toList).Nodup
  | _ => True

/-- All items of an array tell keys apart by more than case. -/
def CaseDistinctItems : List Json → Prop
  | [] => True
  | v :: rest => CaseDistinct v ∧ CaseDistinctItems rest

/-- All values of an object tell keys apart by more than case. -/
def CaseDistinctMembers : List (String × Json) → Prop
  | [] => True
  | (_, v) :: rest => CaseDistinct v ∧ CaseDistinctMembers rest

end

/-- An item of an array that tells keys apart does so. -/
lemma CaseDistinctItems.of_mem {items : List Json} (h : CaseDistinctItems items) {v : Json}
    (hv : v ∈ items) : v.CaseDistinct := by
  induction items with
  | nil => exact absurd hv List.not_mem_nil
  | cons w rest ih =>
    rw [CaseDistinctItems] at h
    rcases List.mem_cons.mp hv with rfl | hv
    · exact h.1
    · exact ih h.2 hv

/-- A value of an object that tells keys apart does so. -/
lemma CaseDistinctMembers.of_mem {members : List (String × Json)} (h : CaseDistinctMembers members)
    {m : String × Json} (hm : m ∈ members) : m.2.CaseDistinct := by
  induction members with
  | nil => exact absurd hm List.not_mem_nil
  | cons w rest ih =>
    rw [CaseDistinctMembers] at h
    rcases List.mem_cons.mp hm with rfl | hm
    · exact h.1
    · exact ih h.2 hm

/-- **What is found in a document that tells keys apart does so too.** -/
lemma CaseDistinct.member? {v found : Json} (h : v.CaseDistinct) {name : String}
    (hfound : v.member? name = some found) : found.CaseDistinct := by
  cases v with
  | null | bool | number | string => cases hfound
  | array items =>
    rw [CaseDistinct] at h
    obtain ⟨i, -, hi⟩ := Option.bind_eq_some_iff.mp hfound
    exact h.of_mem (List.mem_of_getElem? hi)
  | object members =>
    rw [CaseDistinct] at h
    have hmem {p : String × Json → Bool} (hp : (members.find? p).map Prod.snd = some found) :
        found.CaseDistinct := by
      obtain ⟨m, hm, rfl⟩ := Option.map_eq_some_iff.mp hp
      exact h.1.of_mem (List.mem_of_find?_eq_some hm)
    rcases Option.or_eq_some_iff.mp hfound with hfound | ⟨-, hfound⟩
    · exact hmem hfound
    · exact hmem hfound

/-- **The exact key is the only one up to case**, so looking for it first makes no difference.

**Proof sketch.** Induction on the members. Where the first key is the same up to case, no further
one is, so the exact key is not behind it. -/
lemma find_or_findFolded {members : List (String × Json)}
    (h : (members.map fun m => Text.lower m.1.toList).Nodup) (name : String) :
    (find? name members).or (findFolded? name members) = findFolded? name members := by
  induction members with
  | nil => rfl
  | cons m rest ih =>
    rw [List.map_cons, List.nodup_cons] at h
    obtain ⟨hfirst, hrest⟩ := h
    by_cases hexact : m.1 = name
    · subst hexact
      simp [Json.find?, findFolded?]
    · have hfind : find? name (m :: rest) = find? name rest := by simp [Json.find?, hexact]
      rw [hfind]
      by_cases hfolded : Text.sameLetters m.1 name = true
      · have hnone : find? name rest = none := by
          rw [Json.find?, Option.map_eq_none_iff, List.find?_eq_none]
          intro k hk hname
          refine hfirst (List.mem_map.mpr ⟨k, hk, ?_⟩)
          rw [eq_of_beq hname]
          exact (eq_of_beq hfolded).symm
        rw [hnone, Option.none_or]
      · have hnext : findFolded? name (m :: rest) = findFolded? name rest := by
          simp [findFolded?, hfolded]
        rw [hnext]
        exact ih hrest

/-- Names that are the same up to case find the same up to case. -/
lemma findFolded?_eq {n₁ n₂ : String} (h : Text.lower n₁.toList = Text.lower n₂.toList)
    (members : List (String × Json)) : findFolded? n₁ members = findFolded? n₂ members := by
  have hsame : ∀ m : String × Json, Text.sameLetters m.1 n₁ = Text.sameLetters m.1 n₂ := by
    intro m
    rw [Text.sameLetters, Text.sameLetters, h]
  rw [findFolded?, findFolded?, funext hsame]

/-- Texts that are the same up to case are the same if they are digits, and they are so together. -/
lemma digits_eq {t₁ t₂ : List Char} (h : Text.Folded t₁ t₂) :
    (t₁.all Char.isDigit = true → t₁ = t₂) ∧ t₁.all Char.isDigit = t₂.all Char.isDigit := by
  induction h with
  | nil => exact ⟨fun _ => rfl, rfl⟩
  | @cons c₁ c₂ t₁ t₂ hc _ ih =>
    have hdigit : c₁.isDigit = c₂.isDigit := by
      rcases Text.eq_or_isAlpha_of_toLower hc with rfl | ⟨h₁, h₂⟩
      · rfl
      · rw [Text.isDigit_of_isAlpha h₁, Text.isDigit_of_isAlpha h₂]
    refine ⟨fun hall => ?_, ?_⟩
    · rw [List.all_cons, Bool.and_eq_true] at hall
      rw [Text.eq_of_isDigit hc hall.1, ih.1 hall.2]
    · rw [List.all_cons, List.all_cons, hdigit, ih.2]

/-- What is left of a name behind an optional plus sign. -/
def unsigned : List Char → List Char
  | '+' :: cs => cs
  | cs => cs

/-- The index that digits write. -/
def indexOfDigits? (digits : List Char) : Option Nat :=
  if digits.isEmpty ∨ ¬ digits.all Char.isDigit then none
  else if Formula.Number.natOfDigits digits < indexBound then
    some (Formula.Number.natOfDigits digits)
  else none

/-- The index of a name is written behind an optional plus sign. -/
lemma index?_apply (name : String) : index? name = indexOfDigits? (unsigned name.toList) := rfl

/-- A text that does not start with a plus sign is left as it is. -/
lemma unsigned_cons {c : Char} (hc : c ≠ '+') (u : List Char) : unsigned (c :: u) = c :: u := by
  unfold unsigned
  split
  · rename_i heq
    exact absurd (List.cons.inj heq).1 hc
  · rfl

/-- Texts that are the same up to case are so behind an optional plus sign. -/
lemma folded_unsigned {t₁ t₂ : List Char} (h : Text.Folded t₁ t₂) :
    Text.Folded (unsigned t₁) (unsigned t₂) := by
  cases h with
  | nil => exact .nil
  | @cons c₁ c₂ u₁ u₂ hc hu =>
    have hplus : c₁ = '+' ↔ c₂ = '+' := Text.eq_of_toLower hc (by decide)
    by_cases hc₁ : c₁ = '+'
    · rw [hc₁, hplus.mp hc₁]
      exact hu
    · rw [unsigned_cons hc₁, unsigned_cons fun h => hc₁ (hplus.mpr h)]
      exact .cons hc hu

/-- **Names that are the same up to case write the same index**, or none. -/
lemma index?_eq {n₁ n₂ : String} (h : Text.Folded n₁.toList n₂.toList) :
    index? n₁ = index? n₂ := by
  obtain ⟨heq, hall⟩ := digits_eq (folded_unsigned h)
  rw [index?_apply, index?_apply]
  by_cases hdigits : (unsigned n₁.toList).all Char.isDigit = true
  · rw [heq hdigits]
  · rw [indexOfDigits?, indexOfDigits?, if_pos (.inr hdigits), if_pos (.inr (hall ▸ hdigits))]

/-- **Names that are the same up to case find the same member**, in a document that tells keys apart
by more than case. -/
lemma member?_eq {v : Json} (hv : v.CaseDistinct) {n₁ n₂ : String}
    (h : Text.Folded n₁.toList n₂.toList) : v.member? n₁ = v.member? n₂ := by
  cases v with
  | null | bool | number | string => rfl
  | array items => rw [Json.member?, Json.member?, index?_eq h]
  | object members =>
    rw [CaseDistinct] at hv
    rw [Json.member?, Json.member?, find_or_findFolded hv.2, find_or_findFolded hv.2,
      findFolded?_eq (Text.lower_eq_iff.mpr h)]

end Json

/-! ## Evaluation up to case -/

/-- **Texts that are the same up to case are read alike**, where no type name is written. -/
def Likeness.upToCase : Likeness where
  chars c₁ c₂ := c₁.toLower = c₂.toLower
  ahead t₁ t₂ := Text.Folded t₁ t₂ ∧ NoTypeName t₁
  lower h := h
  settle := by
    rintro t₁ t₂ ⟨h, hmark⟩
    refine ⟨?_, hmark.of_suffix (List.dropWhile_suffix _)⟩
    induction h with
    | nil => exact .nil
    | @cons c₁ c₂ u₁ u₂ hc hu ih =>
      have hblank := Text.isBlank_eq_of_toLower hc
      cases hc₁ : Text.isBlank c₁ with
      | true =>
        simp only [Text.dropBlanks, List.dropWhile_cons, hc₁, ← hblank, if_true]
        exact ih (hmark.of_suffix (List.suffix_cons _ _))
      | false =>
        simp only [Text.dropBlanks, List.dropWhile_cons, hc₁, ← hblank]
        exact .cons hc hu
  head := by
    rintro t₁ t₂ ⟨h, hmark⟩
    cases h with
    | nil => exact .inl ⟨fun x hx => absurd hx (by simp), fun x hx => absurd hx (by simp)⟩
    | @cons c₁ c₂ u₁ u₂ hc hu =>
      have hblank := Text.isBlank_eq_of_toLower hc
      cases hc₁ : Text.isBlank c₁ with
      | true =>
        have hc₂ : Text.isBlank c₂ = true := hblank ▸ hc₁
        exact .inl ⟨fun x hx => by cases hx; exact hc₁, fun x hx => by cases hx; exact hc₂⟩
      | false =>
        exact .inr ⟨c₁, c₂, u₁, u₂, rfl, rfl, hc₁, hc, hu,
          hmark.of_suffix (List.suffix_cons _ _)⟩
  mark h := h.2.head_ne

/-- A document that tells keys apart by more than case finds the same members under names that are
the same up to case. -/
lemma Likeness.upToCase_finds {context : Json} (h : context.CaseDistinct)
    (random : RandomSource σ) (tick : Tick) (maxDepth : Nat) :
    upToCase.Finds ⟨context, documents, random, tick, maxDepth⟩ Json.CaseDistinct where
  context := h
  member hobject hnames := congrArg pure (Json.member?_eq hobject hnames)
  closed hobject hfound := hobject.member? hfound

/-- **The same verdict, told in letters of either case**: the same value; violations at the same
position whose wordings are the same up to case; or the same other error. -/
inductive SameUpToCase : Except EvalError Float → Except EvalError Float → Prop
  | value (x : Float) : SameUpToCase (.ok x) (.ok x)
  | malformed (p : Nat) {v₁ v₂ : Violation} :
      Text.sameLetters v₁.message v₂.message = true →
      SameUpToCase (.error (.malformed p v₁)) (.error (.malformed p v₂))
  | other {e : EvalError} : (∀ p v, e ≠ .malformed p v) → SameUpToCase (.error e) (.error e)

/-- Violations that go together are worded the same up to case. -/
lemma Likeness.Violations.sameLetters_message {v₁ v₂ : Violation}
    (h : upToCase.Violations v₁ v₂) : Text.sameLetters v₁.message v₂.message = true := by
  cases h with
  | refl => exact Text.sameLetters_self _
  | @notOperator c₁ c₂ hc =>
    have hchar : Text.sameLetters c₁.toString c₂.toString = true := by
      simp only [Text.sameLetters, Text.lower, Char.toString_eq_singleton, String.toList_singleton,
        List.map_singleton, show c₁.toLower = c₂.toLower from hc, beq_self_eq_true]
    exact Text.sameLetters_append (Text.sameLetters_append (Text.sameLetters_self _) hchar)
      (Text.sameLetters_self _)

/-- **Letter case does not matter**: against a document in which no object has two keys that are the
same up to case, texts that are the same up to case have the same verdict, whatever the random
numbers, the clock and the limit are, and leave the host in the same state. No mark may stand right
before a parenthesis in the first text, and then none does in the second.

**Proof sketch.** The texts are read alike, and names that are the same up to case find the same
members, so the verdicts go together. Behind the places where the texts are malformed they are
equally long, as they are as a whole, so the positions are the same. -/
theorem eval_up_to_case {context : Json} (hcontext : context.CaseDistinct)
    (random : RandomSource σ) (tick : Tick) (maxDepth : Nat) (e₁ e₂ : Evaluator)
    {text₁ text₂ : String} (hmark : NoTypeName text₁.toList)
    (htext : Text.sameLetters text₁ text₂ = true) (host : σ) :
    let env : Env Json σ := ⟨context, documents, random, tick, maxDepth⟩
    SameUpToCase (e₁.eval env text₁ host).1 (e₂.eval env text₂ host).1 ∧
      (e₁.eval env text₁ host).2.2 = (e₂.eval env text₂ host).2.2 := by
  intro env
  have hletters : Text.Folded text₁.toList text₂.toList :=
    Text.lower_eq_iff.mp (eq_of_beq htext)
  have hahead : Likeness.upToCase.ahead text₁.toList text₂.toList := ⟨hletters, hmark⟩
  obtain ⟨hverdict, hhost⟩ := Likeness.eval_alike
    (Likeness.upToCase_finds hcontext random tick maxDepth) e₁ e₂
    (Likeness.upToCase.settle hahead) host
  refine ⟨?_, hhost⟩
  generalize (e₁.eval env text₁ host).1 = r₁ at hverdict ⊢
  generalize (e₂.eval env text₂ host).1 = r₂ at hverdict ⊢
  cases hverdict with
  | value x => exact .value x
  | other he => exact .other he
  | @malformed p₁ p₂ v₁ v₂ rest₁ rest₂ hleaves₁ hleaves₂ hrest hv =>
    obtain rfl : p₁ = p₂ := by
      have h₁ := hleaves₁.length
      have h₂ := hleaves₂.length
      have hbehind := hrest.1.length_eq
      have hwhole := hletters.length_eq
      omega
    exact .malformed p₁ hv.sameLetters_message

/-- On a path whose names are written in other letters than the keys, with a letter where an
operator is missing. -/
theorem eval_up_to_case_member :
    let context : Json := .object [("Alpha", .object [("b", .null), ("c", .null)])]
    let env : Env Json Generator := ⟨context, documents, .generator, .zero, 4⟩
    context.CaseDistinct ∧ NoTypeName "$.alpha.B q".toList ∧
      Text.sameLetters "$.alpha.B q" "$.ALPHA.b Q" = true ∧
      (Evaluator.blank.eval env "$.alpha.B q" 5).1 =
        .error (.malformed 10 (.notOperator 'q')) ∧
      SameUpToCase (Evaluator.blank.eval env "$.alpha.B q" 5).1
        (Evaluator.blank.eval env "$.ALPHA.b Q" 5).1 := by
  intro context env
  have hcontext : context.CaseDistinct := by
    simp [context, Json.CaseDistinct, Json.CaseDistinctMembers, Text.lower]
  have hmark : NoTypeName "$.alpha.B q".toList := by decide
  have htext : Text.sameLetters "$.alpha.B q" "$.ALPHA.b Q" = true := by decide
  exact ⟨hcontext, hmark, htext, rfl,
    (eval_up_to_case hcontext .generator .zero 4 .blank .blank hmark htext 5).1⟩

end Formula
