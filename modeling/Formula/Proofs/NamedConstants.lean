import Formula.Proofs.Completeness

set_option relaxedAutoImplicit false
set_option autoImplicit false

/-!
# Constants by their names

A mark and an identifier are never an error: they stand for the constant of that name, or for zero
when there is none. Names are brought to lower case by the rule of all scripts, while those that are
listed are written in ASCII. So a constant answers to its name in letters of either case and, where
the name has a `k`, to the one letter outside ASCII whose lower case that is: the Kelvin sign. There
is one such name.

## Main definitions

* `Formula.IsIdentifier` — what may follow a mark as the name of a constant.
* `Formula.SpellsConstant` — how the name of a constant may be written.

## Main results

* `Formula.spellsConstant_iff` — a listed name is looked up exactly under its spellings.
* `Formula.eval_identifier` — what a mark and an identifier come to.
* `Formula.constant_named` — the constant of that name, or zero.
-/

namespace Formula

variable {ω σ : Type}

/-! ## Lower case by the rule of all scripts -/

namespace Text

/-- The lower case of a name is that of ASCII where neither a `k` nor the Kelvin sign comes of
it. -/
lemma lowerNameChar_eq_iff {c d : Char} (hk : d ≠ 'k') (hkelvin : d ≠ '\u212a') :
    lowerNameChar c = d ↔ c.toLower = d := by
  unfold lowerNameChar
  split_ifs with hc
  · have hsign : ('\u212a' : Char).toLower = '\u212a' := by decide
    rw [hc, hsign]
    exact ⟨fun h => absurd h.symm hk, fun h => absurd h.symm hkelvin⟩
  · rfl

/-- **A `k` is the lower case of a `k` in either case and of the Kelvin sign.** -/
lemma lowerNameChar_eq_k {c : Char} : lowerNameChar c = 'k' ↔ c = '\u212a' ∨ c.toLower = 'k' := by
  unfold lowerNameChar
  split_ifs with hc
  · simp [hc]
  · simp [hc]

/-- Names without a `k` have the lower case of ASCII. -/
lemma lowerName_eq_iff {s t : List Char} (hk : 'k' ∉ t) (hkelvin : '\u212a' ∉ t) :
    lowerName s = t ↔ lower s = t := by
  induction t generalizing s with
  | nil => simp [lowerName, lower]
  | cons d t ih =>
    simp only [List.mem_cons, not_or] at hk hkelvin
    cases s with
    | nil => simp [lowerName, lower]
    | cons c s =>
      have hhead : lowerNameChar c = d ↔ c.toLower = d :=
        lowerNameChar_eq_iff (Ne.symm hk.1) (Ne.symm hkelvin.1)
      have htail : lowerName s = t ↔ lower s = t := ih hk.2 hkelvin.2
      simp only [lowerName, lower, List.map_cons, List.cons.injEq] at htail ⊢
      rw [hhead, htail]

/-- **A name that ends in a `k`** is the lower case of what ends in a `k` in either case or in the
Kelvin sign. -/
lemma lowerName_eq_append_k {s t : List Char} (hk : 'k' ∉ t) (hkelvin : '\u212a' ∉ t) :
    lowerName s = t ++ ['k'] ↔
      lower s = t ++ ['k'] ∨ ∃ stem, s = stem ++ ['\u212a'] ∧ lower stem = t := by
  induction s using List.reverseRecOn with
  | nil => simp [lowerName, lower]
  | append_singleton stem c _ =>
    have hstem : lowerName stem = t ↔ lower stem = t := lowerName_eq_iff hk hkelvin
    simp only [lowerName, lower, List.map_append, List.map_cons, List.map_nil] at hstem ⊢
    constructor
    · intro h
      obtain ⟨hinit, hlast⟩ := List.append_inj' h rfl
      rcases lowerNameChar_eq_k.mp (List.cons.inj hlast).1 with rfl | hc
      · exact .inr ⟨stem, rfl, hstem.mp hinit⟩
      · exact .inl (by rw [hstem.mp hinit, hc])
    · rintro (h | ⟨stem', h, hlower⟩)
      · obtain ⟨hinit, hlast⟩ := List.append_inj' h rfl
        rw [hstem.mpr hinit, lowerNameChar_eq_k.mpr (.inr (List.cons.inj hlast).1)]
      · obtain ⟨rfl, hlast⟩ := List.append_inj' h rfl
        rw [hstem.mpr hlower, lowerNameChar_eq_k.mpr (.inl (List.cons.inj hlast).1)]

end Text

/-! ## Spellings -/

/-- **An identifier**: a name, or a minus sign and a name that starts with a letter of ASCII. -/
def IsIdentifier (s : List Char) : Prop :=
  IsName s ∨ ∃ name, s = '-' :: name ∧ IsName name ∧ name.head?.any Char.isAlpha = true

/-- **How the name of a constant may be written**: in letters of either case, and the name that ends
in a `k` also with the Kelvin sign for it. -/
def SpellsConstant (s name : String) : Prop :=
  Text.sameLetters s name = true ∨
    name = "secsinweek" ∧ ∃ stem, s = stem ++ "\u212a" ∧ Text.sameLetters stem "secsinwee" = true

/-- The listed names are in lower case, and one of them has a `k`. -/
lemma constantNames_letters : ∀ name ∈ constantNames, Text.lower name.toList = name.toList ∧
    '\u212a' ∉ name.toList ∧ ('k' ∈ name.toList → name = "secsinweek") := by
  decide

/-- Two texts are the same up to case if the lower case of one is the other, which is in lower
case. -/
lemma sameLetters_iff_lower {s name : String} (hname : Text.lower name.toList = name.toList) :
    Text.sameLetters s name = true ↔ Text.lower s.toList = name.toList := by
  rw [Text.sameLetters, beq_iff_eq, hname]

/-- **A listed name is looked up exactly under its spellings.** -/
lemma spellsConstant_iff {s name : String} (hname : name ∈ constantNames) :
    SpellsConstant s name ↔ Text.lowerName s.toList = name.toList := by
  obtain ⟨hlower, hkelvin, hk⟩ := constantNames_letters name hname
  unfold SpellsConstant
  rw [sameLetters_iff_lower hlower]
  by_cases hweek : name = "secsinweek"
  · subst hweek
    have hsplit : "secsinweek".toList = "secsinwee".toList ++ ['k'] := by decide
    have hstem (stem : String) : Text.sameLetters stem "secsinwee" = true ↔
        Text.lower stem.toList = "secsinwee".toList := sameLetters_iff_lower (by decide)
    rw [hsplit, Text.lowerName_eq_append_k (by decide) (by decide)]
    refine or_congr_right ⟨?_, ?_⟩
    · rintro ⟨-, stem, rfl, hsame⟩
      exact ⟨stem.toList, by simp, (hstem stem).mp hsame⟩
    · rintro ⟨stem, hs, hsame⟩
      refine ⟨rfl, String.ofList stem, String.toList_inj.mp (by simp [hs]), ?_⟩
      rw [hstem, String.toList_ofList]
      exact hsame
  · rw [Text.lowerName_eq_iff (fun hmem => hweek (hk hmem)) hkelvin]
    exact or_iff_left fun h => hweek h.1

/-! ## Evaluation -/

/-- An identifier is the text of a constant. -/
lemma IsIdentifier.exists_constant {s : List Char} (hs : IsIdentifier s) :
    ∃ negative name, (Reference.constant negative name).WellFormed ∧
      (Reference.constant negative name).text = s := by
  rcases hs with hname | ⟨name, rfl, hname, halpha⟩
  · exact ⟨false, s, ⟨hname, fun h => absurd h (by decide)⟩, rfl⟩
  · exact ⟨true, name, ⟨hname, fun _ => halpha⟩, rfl⟩

/-- **A mark and an identifier come to** what the table has under the lower case of the identifier,
or to zero; the host is not asked for anything. -/
lemma eval_identifier (e : Evaluator) (env : Env ω σ) (host : σ) {s : String}
    (hs : IsIdentifier s.toList) :
    e.eval env ("$" ++ s) host =
      (.ok ((constant? (String.ofList (Text.lowerName s.toList)) env.tick).getD 0.0), .blank,
        host) := by
  obtain ⟨negative, name, hwf, htext⟩ := hs.exists_constant
  have hwritten : Chain.Written (.mk (.reference (.constant negative name)) .nil)
      ("$" ++ s).toList := by
    have h := Chain.Written.mk (.reference (.constant negative name)) (.nil (w := []) .nil)
      (Scanner.mayTouch_of_ne_context hwf (by simp) [])
    rw [List.append_nil, htext] at h
    rw [String.toList_append]
    exact h
  have hrun := (formula_written hwritten ⟨hwf, trivial⟩ env host).1 (Nat.zero_le _)
  have hname : (if negative then '-' :: Text.lowerName name else Text.lowerName name) =
      Text.lowerName s.toList := by
    rw [← htext]
    cases negative <;> rfl
  rw [Evaluator.eval_eq, hrun, ← hname]
  rfl

/-- **A mark and an identifier are never an error.** They come to the constant whose name the
identifier spells, and to zero when it spells none that is listed; and a name has a value exactly
when it is listed.

**Proof sketch.** The identifier is looked up in lower case, which is a listed name exactly when the
identifier spells it, and the table has a value for each of these and for no other. -/
theorem constant_named (e : Evaluator) (env : Env ω σ) (host : σ) {s : String}
    (hs : IsIdentifier s.toList) :
    (∀ name ∈ constantNames, SpellsConstant s name →
      ∃ x, constant? name env.tick = some x ∧
        e.eval env ("$" ++ s) host = (.ok x, .blank, host)) ∧
    ((∀ name ∈ constantNames, ¬ SpellsConstant s name) →
      e.eval env ("$" ++ s) host = (.ok 0.0, .blank, host)) ∧
    ∀ (name : String) (tick : Tick),
      (constant? name tick).isSome = true ↔ name ∈ constantNames := by
  rw [eval_identifier e env host hs]
  refine ⟨fun name hname hspells => ?_, fun hnone => ?_, constant?_isSome_iff⟩
  · have hlower := (spellsConstant_iff hname).mp hspells
    obtain ⟨x, hx⟩ := Option.isSome_iff_exists.mp ((constant?_isSome_iff name env.tick).mpr hname)
    refine ⟨x, hx, ?_⟩
    rw [hlower, String.ofList_toList, hx]
    rfl
  · have hunlisted : String.ofList (Text.lowerName s.toList) ∉ constantNames := by
      intro hmem
      exact hnone _ hmem ((spellsConstant_iff hmem).mpr (String.toList_ofList).symm)
    have hunknown : constant? (String.ofList (Text.lowerName s.toList)) env.tick = none := by
      rw [← Option.not_isSome_iff_eq_none, constant?_isSome_iff]
      exact hunlisted
    rw [hunknown]
    rfl

/-- On the length of a week, written with letters of either case and the Kelvin sign, and on a name
behind a minus sign that is not listed. -/
theorem constant_named_week :
    IsIdentifier "SecsInWee\u212a".toList ∧ IsIdentifier "-Pi".toList ∧
      (Evaluator.blank.eval (.ofDocument .null 0) ("$" ++ "SecsInWee\u212a") (5 : Generator)).1 =
        .ok 604800.0 ∧
      (Evaluator.blank.eval (.ofDocument .null 0) ("$" ++ "-Pi") (5 : Generator)).1 =
        .ok 0.0 := by
  have hweek : IsIdentifier "SecsInWee\u212a".toList :=
    .inl ⟨by decide, List.all_eq_true.mp (by decide +kernel)⟩
  have hminus : IsIdentifier "-Pi".toList :=
    .inr ⟨['P', 'i'], by decide, ⟨by decide, List.all_eq_true.mp (by decide)⟩, by decide⟩
  refine ⟨hweek, hminus, ?_, ?_⟩
  · obtain ⟨x, hx, heval⟩ := (constant_named .blank (.ofDocument .null 0) (5 : Generator) hweek).1
      "secsinweek" (by decide) (.inr ⟨rfl, "SecsInWee", by decide, by decide⟩)
    obtain rfl : 604800.0 = x := Option.some.inj hx
    rw [heval]
  · have hnone : ∀ name ∈ constantNames, ¬ SpellsConstant "-Pi" name := by
      intro name hname hspells
      have hlower : ∀ name ∈ constantNames, Text.lowerName "-Pi".toList ≠ name.toList := by decide
      exact hlower name hname ((spellsConstant_iff hname).mp hspells)
    rw [(constant_named .blank (.ofDocument .null 0) (5 : Generator) hminus).2.1 hnone]

/-- **Letters of ASCII are not the only ones**: with the Kelvin sign at its end the length of a week
is the same up to the case of ASCII letters as no listed name, and still does not read as zero. -/
theorem constant_of_kelvin_sign :
    IsIdentifier "secsinwee\u212a".toList ∧
      (∀ name ∈ constantNames, Text.sameLetters "secsinwee\u212a" name = false) ∧
      (Evaluator.blank.eval (.ofDocument .null 128) ("$" ++ "secsinwee\u212a")
        (5 : Generator)).1 ≠ .ok 0.0 :=
  ⟨.inl ⟨by decide, List.all_eq_true.mp (by decide +kernel)⟩, by decide, by decide +kernel⟩

end Formula
