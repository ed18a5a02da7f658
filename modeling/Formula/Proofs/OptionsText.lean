import Formula.Options
import Formula.Proofs.Json.Numerals
import Formula.Proofs.Json.Strings

set_option relaxedAutoImplicit false
set_option autoImplicit false

/-!
# Options from texts

An object sets options if each of its members is named like one of them, none is named twice, and
each value is written as a natural number of 64 bits. Then the options are those numbers, whatever
their size, with the defaults for what is left out. Any other object is refused: one that names
something else or the same twice, and one with a value that is negative, has a fraction or a power
of ten, is too large, or is no number at all. No default makes up for such a member.

Members are read one after the other into a draft, and the reading keeps step with filling the draft
from the members as they are written.

## Main definitions

* `Formula.Options.Sets` — members that set an option.
* `Formula.Options.Reader.Draft.fill` — a draft filled from members.

## Main results

* `Formula.Options.Reader.natural_reads` — a value is read if it is a natural number of 64 bits.
* `Formula.Options.Reader.members_reads` — members are read as the draft that they fill.
* `Formula.Options.read_object` — the options that an object sets, and the objects that are refused.
-/

namespace Formula

open Json.Grammar
open Json.Reader (Takes Fails Yields Reads Continues FollowsNumber)

/-! ## Members of objects -/

namespace Json.Reader

/-- **The name of a member is read** behind what stands in front of it. -/
lemma member_reads {first : Bool} {lead : List Char} {name : List Piece} (hlead : Lead first lead)
    (hname : ∀ p ∈ name, p.WellFormed) (rest : List Char) :
    Reads (member first) (lead ++ '"' :: (piecesText name ++ '"' :: rest))
      ((decode name).map fun s => (some (String.ofList s), rest)) := by
  have hquoted : Reads (do advance; some <$> string : Reader (Option String))
      ('"' :: (piecesText name ++ '"' :: rest))
      ((decode name).map fun s => (some (String.ofList s), rest)) := by
    have hstring := (string_reads hname rest).map some
    rw [Option.map_map] at hstring
    exact (advance_takes '"' _).reads hstring
  cases first with
  | true =>
    have hspaces : Spaces lead := hlead
    exact (peekToken_cons hspaces (by decide) _).reads hquoted
  | false =>
    obtain ⟨before, behind, hbefore, hbehind, rfl⟩ := hlead
    rw [List.append_assoc, List.cons_append]
    exact (peekToken_cons hbefore (by decide) _).reads
      ((advance_takes ',' _).reads ((peekToken_cons hbehind (by decide) _).reads hquoted))

/-- Behind the last member the brace is found. -/
lemma member_end {gap : List Char} (hgap : Spaces gap) (first : Bool) (rest : List Char) :
    Takes (member first) (gap ++ '}' :: rest) none ('}' :: rest) :=
  (peekToken_cons hgap (by decide) rest).bind (.pure none _)

/-- The colon behind a name is read. -/
lemma colon_takes {gap : List Char} (hgap : Spaces gap) (rest : List Char) :
    Takes colon (gap ++ ':' :: rest) () rest :=
  (peekToken_cons hgap (by decide) rest).bind (advance_takes ':' rest)

/-- White space may end a text. -/
lemma finish_takes {gap : List Char} (hgap : Spaces gap) : Takes finish gap () [] := by
  have hend : Takes peekToken (gap ++ []) none [] := peekToken_takes hgap fun _ h => by cases h
  rw [List.append_nil] at hend
  exact hend.bind (.pure () [])

end Json.Reader

/-- What stands behind a value in an object does not continue a number. -/
lemma Json.Grammar.Members.followsNumber {R : Value → List Char → Prop}
    {members : List (List Piece × Value)} {cs : List Char} (h : Members R false members cs)
    (rest : List Char) : FollowsNumber (cs ++ '}' :: rest) := by
  have hspaces : ∀ {gap : List Char} {c : Char} {behind : List Char}, Spaces gap →
      FollowsNumber (c :: behind) → FollowsNumber (gap ++ c :: behind) := by
    intro gap c behind hgap hbehind
    cases gap with
    | nil => exact hbehind
    | cons d gap =>
      intro e he
      obtain rfl : d = e := Option.some.inj he
      have hspace := hgap d List.mem_cons_self
      simp only [Reader.isSpace, Bool.or_eq_true, decide_eq_true_eq] at hspace
      rcases hspace with ((rfl | rfl) | rfl) | rfl <;> decide
  cases h with
  | nil hgap =>
    refine hspaces hgap fun e he => ?_
    obtain rfl : '}' = e := Option.some.inj he
    decide
  | cons hlead _ _ _ _ _ =>
    obtain ⟨before, behind, hbefore, -, rfl⟩ := hlead
    simp only [List.append_assoc, List.cons_append]
    refine hspaces hbefore fun e he => ?_
    obtain rfl : ',' = e := Option.some.inj he
    decide

namespace Options

/-- **A key names the member whose key it is.** -/
lemma Field.ofKey?_eq_some_iff {key : String} {field : Field} :
    Field.ofKey? key = some field ↔ key = field.key := by
  constructor
  · intro h
    have hkey := List.find?_some h
    exact (eq_of_beq hkey).symm
  · rintro rfl
    cases field <;> rfl

/-- **A member sets an option** if it is named like it and has its value. -/
def Sets (setting : Field × Nat) (member : List Piece × Value) : Prop :=
  decode member.1 = some setting.1.key.toList ∧ member.2.natural? = some setting.2

/-- Members that set options have the names and the values of these. -/
lemma map_of_sets {settings : List (Field × Nat)} {members : List (List Piece × Value)}
    (h : List.Forall₂ Sets settings members) :
    members.map (fun m => (decode m.1, m.2.natural?)) =
      settings.map fun s => (some s.1.key.toList, some s.2) := by
  induction h with
  | nil => rfl
  | cons hsets _ ih => rw [List.map_cons, List.map_cons, hsets.1, hsets.2, ih]

/-- Different options have different keys. -/
lemma Field.key_injective : Function.Injective Field.key := by
  intro field field' h
  have hfield := ofKey?_eq_some_iff.mpr h
  rw [ofKey?_eq_some_iff.mpr rfl] at hfield
  exact Option.some.inj hfield

namespace Reader

variable {α β : Type} {cs rest : List Char}

/-! ## Reading JSON -/

/-- What a reader of JSON does is done as well when options are read. -/
lemma ofJson_reads {m : Json.Reader α} {o : Option (α × List Char)} (h : Reads m cs o) :
    Reads (ofJson m) cs o := by
  cases o with
  | none =>
    intro place
    obtain ⟨fault, hrun⟩ := h place
    exact ⟨⟨.json fault.cause, fault.place⟩, by rw [ofJson, hrun]⟩
  | some r =>
    intro place
    obtain ⟨place', hrun⟩ := h place
    exact ⟨place', by rw [ofJson, hrun]⟩

/-- What a reader of JSON takes is taken. -/
lemma ofJson_takes {m : Json.Reader α} {x : α} (h : Takes m cs x rest) :
    Takes (ofJson m) cs x rest :=
  ofJson_reads (o := some (x, rest)) h

/-- What a reader of JSON yields is yielded. -/
lemma ofJson_yields {m : Json.Reader α} {P : α → Prop} (h : Yields m cs P) :
    Yields (ofJson m) cs P := by
  intro place x input hx
  unfold ofJson at hx
  cases hrun : m ⟨place, cs⟩ with
  | error fault =>
    rw [hrun] at hx
    cases hx
  | ok r =>
    rw [hrun] at hx
    obtain rfl := Except.ok.inj hx
    exact h place x input hrun

/-- Stopping at a place fails. -/
lemma failHere_fails (cause : Cause) : Fails (failHere cause : Reader α) cs :=
  fun _ => ⟨_, rfl⟩

/-- A member that is refused for its name makes the reading fail. -/
lemma failBehindKey_fails (cause : Cause) : Fails (failBehindKey cause : Reader α) cs :=
  Yields.fails (.behind fun _ _ => (failHere_fails cause).yields)

/-! ## Values -/

/-- Takes what was found for a natural number, or stops. -/
def judge : Found → Reader Nat
  | .number (.whole n) => if 0 ≤ n then pure n.toNat else failHere (.negative n)
  | other => failHere (.notNatural other)

/-- Reading a natural number is finding what comes first, and judging it. -/
lemma natural_continues {gap : List Char} (hgap : Spaces gap) {c : Char}
    (hc : Json.Reader.isSpace c = false) (cs : List Char) :
    Continues natural (gap ++ c :: cs) (ofJson (found c) >>= judge) (c :: cs) := by
  refine (ofJson_takes (Json.Reader.peekToken_cons hgap hc cs)).continues.trans fun place =>
    ⟨place, ?_⟩
  dsimp only
  rw [Json.Reader.bind_run, Json.Reader.bind_run]
  cases ofJson (found c) ⟨place, c :: cs⟩ with
  | error fault => rfl
  | ok r =>
    obtain ⟨other, input⟩ := r
    cases other with
    | number x => cases x <;> rfl
    | _ => rfl

/-- Natural numbers are taken. -/
lemma judge_takes (n : Nat) (rest : List Char) :
    Takes (judge (.number (.whole n))) rest n rest := by
  rw [judge, if_pos (Int.natCast_nonneg n), Int.toNat_natCast]
  exact .pure n rest

/-- Anything else is refused. -/
lemma judge_fails {x : Found} (hx : ∀ n : Nat, x ≠ .number (.whole n)) (rest : List Char) :
    Fails (judge x) rest := by
  cases x with
  | number x =>
    cases x with
    | real x => exact failHere_fails _
    | whole n =>
      have hneg : ¬ 0 ≤ n := fun h => hx n.toNat (by rw [Int.toNat_of_nonneg h])
      rw [judge, if_neg hneg]
      exact failHere_fails _
  | _ => exact failHere_fails _

/-- A value is refused if nothing that may be found is a natural number. -/
lemma natural_fails {gap : List Char} (hgap : Spaces gap) {c : Char}
    (hc : Json.Reader.isSpace c = false) {cs : List Char}
    (hfound : Yields (found c) (c :: cs) fun x => ∀ n : Nat, x ≠ .number (.whole n)) :
    Fails natural (gap ++ c :: cs) := by
  refine (natural_continues hgap hc cs).reads (o := none) (Yields.fails ?_)
  exact (ofJson_yields hfound).bind fun x hx rest => (judge_fails hx rest).yields

/-- What starts with neither a digit nor a sign is no number. -/
lemma found_yields {c : Char} (hdigit : c.isDigit = false) (hsign : c ≠ '-') :
    Yields (found c) cs fun x => ∀ n : Nat, x ≠ .number (.whole n) := by
  unfold found
  split
  · exact .pure fun n h => by cases h
  · exact .pure fun n h => by cases h
  · exact .behind fun _ _ => .behind fun _ _ => .pure fun n h => by cases h
  · exact absurd rfl hsign
  · exact .behind fun _ _ => .behind fun _ _ => .pure fun n h => by cases h
  · exact .behind fun _ _ => .behind fun _ _ => .pure fun n h => by cases h
  · exact .behind fun _ _ => .behind fun _ _ => .pure fun n h => by cases h
  · rw [hdigit]
    exact (Json.Reader.fail_fails _).yields

/-- What starts with a digit is a number. -/
lemma found_digit {c : Char} (hc : c.isDigit = true) :
    found c = Json.Reader.numeral false >>= fun x => pure (.number x) := by
  unfold found
  split
  case h_8 => rw [if_pos hc]
  all_goals exact absurd hc (by decide)

/-- **A number is read if it is a natural number of 64 bits**, and refused otherwise. -/
lemma natural_number {gap : List Char} (hgap : Spaces gap) {x : Numeral} (hx : x.WellFormed)
    (hrest : FollowsNumber rest) :
    Reads natural (gap ++ (x.text ++ rest)) (x.natural?.map (·, rest)) := by
  cases hsign : x.negative with
  | true =>
    have hnone : x.natural? = none := by simp [Numeral.natural?, hsign]
    have htext : x.text ++ rest = '-' :: (x.whole ++ x.behindWhole ++ rest) := by
      simp [Numeral.text, hsign]
    rw [hnone, htext]
    refine natural_fails hgap (by decide) (.behind fun _ _ => ?_)
    refine Json.Reader.numeral_negative.bind fun y hy _ => .pure fun n h => ?_
    exact hy n (Found.number.inj h)
  | false =>
    obtain ⟨c, cs, hwhole⟩ : ∃ c cs, x.whole = c :: cs := by
      rcases hx.whole with hzero | ⟨c, cs, hcons, -⟩
      · exact ⟨'0', [], hzero⟩
      · exact ⟨c, cs, hcons⟩
    have hdigit : c.isDigit = true := hx.digits c (by rw [hwhole]; exact List.mem_cons_self)
    have hspace : Json.Reader.isSpace c = false := by
      by_contra hspace
      simp only [Json.Reader.isSpace, Bool.not_eq_false, Bool.or_eq_true,
        decide_eq_true_eq] at hspace
      rcases hspace with ((rfl | rfl) | rfl) | rfl <;> exact absurd hdigit (by decide)
    have htext : x.text ++ rest = c :: (cs ++ x.behindWhole ++ rest) := by
      simp [Numeral.text, hsign, hwhole]
    cases hn : x.natural? with
    | none =>
      rw [htext]
      refine natural_fails hgap hspace ?_
      rw [found_digit hdigit, ← htext]
      refine (Json.Reader.numeral_yields_real hx hrest hsign hn).bind ?_
      rintro _ ⟨y, rfl⟩ rest
      exact .pure fun n h => by cases h
    | some n =>
      have hfound : Takes (found c) (x.text ++ rest) (.number (.whole n)) rest := by
        rw [found_digit hdigit]
        exact (Json.Reader.numeral_takes hx hrest hn).bind (.pure _ rest)
      have hcontinues := natural_continues hgap hspace (cs ++ x.behindWhole ++ rest)
      rw [← htext] at hcontinues
      exact hcontinues.takes ((ofJson_takes hfound).bind (judge_takes n rest))

/-- **A value is read if it is a natural number of 64 bits**, and refused otherwise. -/
theorem natural_reads {gap text : List Char} {value : Value} (hgap : Spaces gap)
    (hvalue : Written value text) (hrest : FollowsNumber rest) :
    Reads natural (gap ++ (text ++ rest)) (value.natural?.map (·, rest)) := by
  -- a text that starts with neither a digit nor a sign is no number
  have hother : ∀ {c : Char} {cs : List Char}, Json.Reader.isSpace c = false →
      c.isDigit = false → c ≠ '-' → Fails natural (gap ++ c :: cs) :=
    fun hspace hdigit hsign => natural_fails hgap hspace (found_yields hdigit hsign)
  cases hvalue with
  | number hx => exact natural_number hgap hx hrest
  | null | true | false | string | array | object =>
    exact hother (by decide) (by decide) (by decide)

/-! ## Drafts -/

/-- The member that a name names. -/
def fieldOf (name : List Piece) : Option Field :=
  (decode name).bind fun s => Field.ofKey? (String.ofList s)

/-- A name names the member whose key it stands for. -/
lemma fieldOf_eq_some_iff {name : List Piece} {field : Field} :
    fieldOf name = some field ↔ decode name = some field.key.toList := by
  simp only [fieldOf, Option.bind_eq_some_iff, Field.ofKey?_eq_some_iff]
  constructor
  · rintro ⟨s, hdecode, hkey⟩
    rw [hdecode, ← hkey, String.toList_ofList]
  · intro h
    exact ⟨_, h, String.ofList_toList⟩

namespace Draft

/-- **A draft filled from members**, if each of them sets an option that has not been set. -/
def fill (draft : Draft) : List (List Piece × Value) → Option Draft
  | [] => some draft
  | (name, value) :: rest =>
    match fieldOf name, value.natural? with
    | some field, some n =>
      if (draft.get field).isSome then none else (draft.set n field).fill rest
    | _, _ => none

/-- What is set is the value of one member, and those of the others stay. -/
@[simp] lemma get_set (draft : Draft) (n : Nat) (field field' : Field) :
    (draft.set n field).get field' = if field' = field then some n else draft.get field' := by
  cases field <;> cases field' <;> rfl

/-- **Members that set different options fill a draft** in which none of these is set.

**Proof sketch.** Induction on the members. The first one sets its option, which no other member
sets; so theirs are still unset, and what it set stays. -/
lemma fill_of_sets {settings : List (Field × Nat)} {members : List (List Piece × Value)}
    (h : List.Forall₂ Sets settings members) (hnodup : (settings.map Prod.fst).Nodup)
    (draft : Draft) (hunset : ∀ s ∈ settings, draft.get s.1 = none) :
    ∃ draft', draft.fill members = some draft' ∧
      ∀ field, draft'.get field = (settings.lookup field).or (draft.get field) := by
  induction h generalizing draft with
  | nil => exact ⟨draft, rfl, fun _ => rfl⟩
  | cons hsets hrest ih =>
    rename_i setting member settings members
    obtain ⟨field, n⟩ := setting
    obtain ⟨hname, hvalue⟩ := hsets
    obtain ⟨hnew, hnodup⟩ := List.nodup_cons.mp hnodup
    have hother : ∀ s ∈ settings, s.1 ≠ field :=
      fun s hs heq => hnew (List.mem_map.mpr ⟨s, hs, heq⟩)
    have hstill : ∀ s ∈ settings, (draft.set n field).get s.1 = none := by
      intro s hs
      rw [get_set, if_neg (hother s hs)]
      exact hunset s (List.mem_cons_of_mem _ hs)
    have hfree : draft.get field = none := hunset (field, n) List.mem_cons_self
    obtain ⟨draft', hfill, hget⟩ := ih hnodup (draft.set n field) hstill
    refine ⟨draft', ?_, fun field' => ?_⟩
    · rw [fill, fieldOf_eq_some_iff.mpr hname, hvalue]
      simp only [hfree, Option.isSome_none, Bool.false_eq_true, if_false]
      exact hfill
    · rw [hget, get_set, List.lookup_cons]
      by_cases heq : field' = field
      · subst heq
        have hnone : settings.lookup field' = none :=
          List.lookup_eq_none_iff.mpr fun s hs => by simpa using (hother s hs).symm
        simp [hnone]
      · simp [beq_eq_false_iff_ne.mpr heq, heq]

/-- **Members that fill a draft set different options**, none of which is set in it. -/
lemma sets_of_fill {members : List (List Piece × Value)} {draft draft' : Draft}
    (h : draft.fill members = some draft') :
    ∃ settings, List.Forall₂ Sets settings members ∧ (settings.map Prod.fst).Nodup ∧
      ∀ s ∈ settings, draft.get s.1 = none := by
  induction members generalizing draft with
  | nil => exact ⟨[], .nil, List.nodup_nil, fun _ hs => by cases hs⟩
  | cons member members ih =>
    obtain ⟨name, value⟩ := member
    rw [fill] at h
    cases hname : fieldOf name with
    | none => simp [hname] at h
    | some field =>
      cases hvalue : value.natural? with
      | none => simp [hname, hvalue] at h
      | some n =>
        simp only [hname, hvalue] at h
        split at h
        case isTrue => cases h
        case isFalse hset =>
          obtain ⟨settings, hsets, hnodup, hunset⟩ := ih h
          have hother : ∀ s ∈ settings, s.1 ≠ field := by
            intro s hs heq
            have hnone := hunset s hs
            rw [get_set, if_pos heq] at hnone
            cases hnone
          refine ⟨(field, n) :: settings, .cons ⟨fieldOf_eq_some_iff.mp hname, hvalue⟩ hsets,
            List.nodup_cons.mpr ⟨?_, hnodup⟩, ?_⟩
          · intro hmem
            obtain ⟨s, hs, heq⟩ := List.mem_map.mp hmem
            exact hother s hs heq
          · intro s hs
            rcases List.mem_cons.mp hs with rfl | hs
            · exact Option.not_isSome_iff_eq_none.mp hset
            · have hnone := hunset s hs
              rwa [get_set, if_neg (hother s hs)] at hnone

end Draft

/-- **Members are read as the draft that they fill**, and refused if they fill none.

**Proof sketch.** Induction on the members as they are written. The name of a member is read first.
If it names nothing, or something that is set already, the reading stops there; otherwise the value
decides. Each member has a character, so there are enough rounds. -/
theorem members_reads {first : Bool} {members : List (List Piece × Value)} {cs : List Char}
    (h : Members Written first members cs) {rounds : Nat} (hrounds : cs.length < rounds)
    (draft : Draft) (rest : List Char) :
    Reads (Reader.members rounds first draft) (cs ++ '}' :: rest)
      ((draft.fill members).map (·, rest)) := by
  induction h generalizing rounds draft with
  | nil hgap =>
    rename_i first gap
    obtain ⟨rounds, rfl⟩ := Nat.exists_eq_add_one.mpr (Nat.zero_lt_of_lt hrounds)
    exact (ofJson_takes (Json.Reader.member_end hgap first rest)).bind
      ((ofJson_takes (Json.Reader.advance_takes '}' rest)).bind (.pure draft rest))
  | cons hlead hname hgap hgap' hvalue hrest ih =>
    rename_i first lead gap gap' text cs name value behind
    obtain ⟨rounds, rfl⟩ := Nat.exists_eq_add_one.mpr (Nat.zero_lt_of_lt hrounds)
    have hfewer : cs.length < rounds := by
      simp only [List.length_append, List.length_cons] at hrounds
      omega
    simp only [List.append_assoc, List.cons_append]
    have hmember := ofJson_reads (Json.Reader.member_reads hlead hname
      (gap ++ ':' :: (gap' ++ (text ++ (cs ++ '}' :: rest)))))
    cases hdecode : decode name with
    | none =>
      have hfill : draft.fill ((name, value) :: behind) = none := by
        simp [Draft.fill, fieldOf, hdecode]
      rw [hdecode] at hmember
      rw [hfill]
      exact Fails.bind hmember
    | some s =>
      rw [hdecode] at hmember
      have hkey : Takes (ofJson (Json.Reader.member first)) _ (some (String.ofList s)) _ := hmember
      refine hkey.reads ?_
      dsimp only
      cases hfield : Field.ofKey? (String.ofList s) with
      | none =>
        have hfill : draft.fill ((name, value) :: behind) = none := by
          simp [Draft.fill, fieldOf, hdecode, hfield]
        rw [hfill]
        exact failBehindKey_fails _
      | some field =>
        have hfill : draft.fill ((name, value) :: behind) =
            value.natural?.bind fun n =>
              if (draft.get field).isSome then none else (draft.set n field).fill behind := by
          simp only [Draft.fill, fieldOf, hdecode, Option.bind_some, hfield]
          cases value.natural? <;> rfl
        rw [hfill]
        by_cases hset : (draft.get field).isSome
        · simp only [hset, if_true]
          cases value.natural? <;> exact failBehindKey_fails _
        · simp only [hset, if_false, Bool.false_eq_true]
          refine (ofJson_takes (Json.Reader.colon_takes hgap _)).reads ?_
          have hnatural := natural_reads hgap' hvalue (hrest.followsNumber rest)
          cases hn : value.natural? with
          | none =>
            rw [hn] at hnatural
            exact Fails.bind hnatural
          | some n =>
            rw [hn] at hnatural
            have htakes : Takes natural _ n _ := hnatural
            exact htakes.reads (ih hfewer (draft.set n field))

/-- **An object is read as the options of the draft that its members fill.** -/
lemma options_reads {before members : List Char} {ms : List (List Piece × Value)}
    (hbefore : Spaces before) (hmembers : Members Written true ms members) (behind : List Char) :
    Reads options (before ++ '{' :: (members ++ '}' :: behind))
      (((⟨none, none⟩ : Draft).fill ms).map fun draft => (draft.finish, behind)) := by
  have hrounds : members.length < (members ++ '}' :: behind).length := by
    rw [List.length_append, List.length_cons]
    omega
  have hread := members_reads hmembers hrounds ⟨none, none⟩ behind
  refine (ofJson_takes (Json.Reader.peekToken_cons hbefore (by decide) _)).reads
    ((ofJson_takes (Json.Reader.advance_takes '{' _)).reads
      ((ofJson_takes (Json.Reader.remaining_takes _)).reads ?_))
  cases hfill : (⟨none, none⟩ : Draft).fill ms with
  | none =>
    rw [hfill] at hread
    exact Fails.bind hread
  | some draft =>
    rw [hfill] at hread
    have htakes : Takes _ _ draft behind := hread
    exact htakes.bind (.pure draft.finish behind)

end Reader

/-! ## Whole texts -/

/-- **A text of an object is read as the draft that its members fill**, and refused if they fill
none. -/
lemma read_of_isText {text : String} {members : List (List Piece × Value)}
    (h : IsText (.object members) text) :
    match (⟨none, none⟩ : Reader.Draft).fill members with
    | some draft => read text = .ok draft.finish
    | none => ∃ fault, read text = .error fault := by
  obtain ⟨before, cs, behind, hbefore, hvalue, hbehind, htext⟩ := h
  cases hvalue with
  | object hmembers =>
    rename_i cs
    have hrest : text.toList = before ++ '{' :: (cs ++ '}' :: behind) := by
      rw [htext]
      simp only [List.append_assoc, List.cons_append, List.nil_append]
    have hoptions := Reader.options_reads hbefore hmembers behind
    rw [← hrest] at hoptions
    cases hfill : (⟨none, none⟩ : Reader.Draft).fill members with
    | none =>
      rw [hfill] at hoptions
      exact (Fails.bind hoptions).whole
    | some draft =>
      rw [hfill] at hoptions
      have htakes : Takes Reader.options text.toList draft.finish behind := hoptions
      have hfinish := Reader.ofJson_takes (Json.Reader.finish_takes hbehind)
      exact (htakes.bind (hfinish.bind (.pure draft.finish []))).whole

/-- **Options are read exactly, or not at all.** Of an object whose members set different options,
in any order and with any white space, those options are read, and the defaults of the others. An
object with a member of another name or twice the same one, or with a value that is not a natural
number of 64 bits, is refused, whatever its other members are. -/
theorem read_object {text : String} {members : List (List Piece × Value)}
    (h : IsText (.object members) text) :
    (∀ settings : List (Field × Nat), (settings.map Prod.fst).Nodup →
      List.Forall₂ Sets settings members →
      read text = .ok ⟨(settings.lookup .maxDepth).getD 128,
        (settings.lookup .poolCapacity).getD 8⟩) ∧
    (((∃ m ∈ members, (∀ field : Field, decode m.1 ≠ some field.key.toList) ∨
        m.2.natural? = none) ∨ ¬ (members.map fun m => decode m.1).Nodup) →
      ∃ fault, read text = .error fault) := by
  have hread := read_of_isText h
  constructor
  · intro settings hnodup hsets
    obtain ⟨draft, hfill, hget⟩ := Reader.Draft.fill_of_sets hsets hnodup
      ⟨none, none⟩ fun s _ => by cases s.1 <;> rfl
    rw [hfill] at hread
    have hdepth : draft.maxDepth = settings.lookup .maxDepth := by
      simpa [Reader.Draft.get] using hget .maxDepth
    have hcapacity : draft.poolCapacity = settings.lookup .poolCapacity := by
      simpa [Reader.Draft.get] using hget .poolCapacity
    rw [hread, Reader.Draft.finish, hdepth, hcapacity]
    rfl
  · intro hbad
    cases hfill : (⟨none, none⟩ : Reader.Draft).fill members with
    | none =>
      rw [hfill] at hread
      exact hread
    | some draft =>
      exfalso
      obtain ⟨settings, hsets, hnodup, -⟩ := Reader.Draft.sets_of_fill hfill
      have hmap := map_of_sets hsets
      rcases hbad with ⟨m, hm, hbad⟩ | hrepeated
      · have hmem := List.mem_map_of_mem (f := fun m => (decode m.1, m.2.natural?)) hm
        rw [hmap] at hmem
        obtain ⟨s, -, hs⟩ := List.mem_map.mp hmem
        obtain ⟨hname, hvalue⟩ := Prod.mk.inj hs
        rcases hbad with hname' | hvalue'
        · exact hname' s.1 hname.symm
        · rw [hvalue'] at hvalue
          cases hvalue
      · apply hrepeated
        have hnames := congrArg (List.map Prod.fst) hmap
        rw [List.map_map, List.map_map] at hnames
        have hkeys : Function.Injective fun field : Field => some field.key.toList :=
          fun _ _ h => Field.key_injective (String.toList_injective (Option.some.inj h))
        have hdistinct := hnodup.map hkeys
        rw [List.map_map] at hdistinct
        exact hnames ▸ hdistinct

/-- The largest number is read behind a name with an escaped letter, and the next one is refused. -/
theorem read_object_largest :
    let number (digits : String) : Value := .number ⟨false, digits.toList, none, none⟩
    let depth : List Piece := "max_depth".toList.map .plain
    let capacity : List Piece :=
      "pool_c".toList.map .plain ++ .unit ['0', '0', '6', '1'] :: "pacity".toList.map .plain
    let members := [(capacity, number "18446744073709551615"), (depth, number "0")]
    let text := "\x7b \"pool_c\\u0061pacity\" :18446744073709551615, \"max_depth\":0\x7d\n"
    let members' := [(depth, number "18446744073709551616")]
    let text' := "\x7b\"max_depth\": 18446744073709551616\x7d"
    IsText (.object members) text ∧
      List.Forall₂ Sets [(.poolCapacity, 2 ^ 64 - 1), (.maxDepth, 0)] members ∧
      read text = .ok ⟨0, 2 ^ 64 - 1⟩ ∧
      IsText (.object members') text' ∧ (number "18446744073709551616").natural? = none ∧
      ∃ fault, read text' = .error fault := by
  intro number depth capacity members text members' text'
  have hcapacity : ∀ p ∈ capacity, p.WellFormed := by decide
  have hdepth : ∀ p ∈ depth, p.WellFormed := by decide
  have hempty : Spaces [] := by decide
  have hblank : Spaces [' '] := by decide
  have hend : Members Written false [] [] := .nil hempty
  have htext : IsText (.object members) text := by
    have hmost : Written (number "18446744073709551615") "18446744073709551615".toList :=
      Numeral.written_of_digits (List.all_eq_true.mp (by decide)) (.inr ⟨'1', _, rfl, by decide⟩)
    have hzero : Written (number "0") ['0'] :=
      Numeral.written_of_digits (List.all_eq_true.mp (by decide)) (.inl rfl)
    have hcomma : Lead false [',', ' '] := ⟨[], [' '], hempty, hblank, rfl⟩
    have hlead : Lead true [' '] := hblank
    exact ⟨[], _, ['\n'], hempty, .object (.cons hlead hcapacity hblank hempty hmost
      (.cons hcomma hdepth hempty hempty hzero hend)), by decide, by decide⟩
  have htext' : IsText (.object members') text' := by
    have hmore : Written (number "18446744073709551616") "18446744073709551616".toList :=
      Numeral.written_of_digits (List.all_eq_true.mp (by decide)) (.inr ⟨'1', _, rfl, by decide⟩)
    have hlead : Lead true [] := hempty
    exact ⟨[], _, [], hempty, .object (.cons hlead hdepth hempty hblank hmore hend), hempty,
      by decide⟩
  have hsets : List.Forall₂ Sets [(.poolCapacity, 2 ^ 64 - 1), (.maxDepth, 0)] members :=
    .cons ⟨by decide, by decide⟩ (.cons ⟨by decide, by decide⟩ .nil)
  have hnone : (number "18446744073709551616").natural? = none := by decide
  refine ⟨htext, hsets, ?_, htext', hnone, ?_⟩
  · exact (read_object htext).1 _ (by decide) hsets
  · exact (read_object htext').2 (.inl ⟨_, List.mem_singleton_self _, .inr hnone⟩)

end Options

end Formula
