import Formula.Proofs.Json.Readers

set_option relaxedAutoImplicit false
set_option autoImplicit false

/-!
# Reading strings

A string is read piece by piece, and what is read is what its pieces stand for. The digits of a unit
are taken four at a time; the first half of a pair must be followed by the second one, so a pair is
read in one go, and half of a pair without the other is a fault.

## Main results

* `Formula.Json.Reader.numberedEscape_pair`, `Formula.Json.Reader.numberedEscape_alone` — halves of
  a pair are read together, or not at all.
* `Formula.Json.Reader.string_reads` — a string is read as the characters it stands for.
-/

namespace Formula.Json.Reader

open Grammar

/-! ## Strings -/

section

variable {rest : List Char}

/-- Hexadecimal digits are single bytes. -/
lemma utf8Size_of_hexDigit {c : Char} (h : (hexDigit? c).isSome) : c.utf8Size = 1 := by
  have hle : c.val ≤ 'f'.val := by
    unfold hexDigit? at h
    split_ifs at h with hdigit hlower hupper
    · exact hdigit.2.trans (by decide)
    · exact hlower.2
    · exact hupper.2.trans (by decide)
    · cases h
  have hle' : c.val.toNat ≤ 102 := hle
  rw [Char.utf8Size_eq_one_iff, UInt32.le_iff_toNat_le]
  exact hle'.trans (by decide)

/-- Hexadecimal digits have a number. -/
lemma natOfHex?_isSome {digits : List Char} (h : ∀ c ∈ digits, (hexDigit? c).isSome) (n : Nat) :
    (digits.foldl (fun n c => do return 16 * (← n) + (← hexDigit? c)) (some n)).isSome := by
  induction digits generalizing n with
  | nil => rfl
  | cons c digits ih =>
    obtain ⟨d, hd⟩ := Option.isSome_iff_exists.mp (h c List.mem_cons_self)
    rw [List.foldl_cons]
    simp only [hd]
    exact ih (fun c hc => h c (List.mem_cons_of_mem _ hc)) (16 * n + d)

/-- **The digits of a unit are read.** -/
lemma fourHex_takes {digits : List Char} (hlength : digits.length = 4)
    (hhex : ∀ c ∈ digits, (hexDigit? c).isSome) :
    Takes fourHex (digits ++ rest) (unitOf digits) rest := by
  intro place
  have htake : (digits ++ rest).take 4 = digits := by rw [← hlength, List.take_left]
  have hdrop : (digits ++ rest).drop 4 = rest := by rw [← hlength, List.drop_left]
  have hbytes : digits.foldl (fun n c => n + c.utf8Size) 0 = 4 := by
    have hfold : ∀ (n : Nat) (cs : List Char), (∀ c ∈ cs, (hexDigit? c).isSome) →
        cs.foldl (fun n c => n + c.utf8Size) n = n + cs.length := by
      intro n cs
      induction cs generalizing n with
      | nil => exact fun _ => rfl
      | cons c cs ih =>
        intro hcs
        rw [List.foldl_cons, ih _ fun d hd => hcs d (List.mem_cons_of_mem c hd),
          utf8Size_of_hexDigit (hcs c List.mem_cons_self), List.length_cons]
        omega
    rw [hfold 0 digits hhex, hlength]
  obtain ⟨n, hn⟩ := Option.isSome_iff_exists.mp (natOfHex?_isSome hhex 0)
  have hvalue : natOfHex? digits = some n := hn
  refine ⟨place.afterBytes 4 (digits ++ rest), ?_⟩
  simp only [fourHex, htake, hdrop, hbytes, hvalue, unitOf, Option.getD_some]
  rfl

/-- A character that is expected in a pair is read. -/
lemma expectInPair_takes (c : Char) : Takes (expectInPair c) (c :: rest) () rest := by
  refine (peek_takes (c :: rest)).bind ?_
  simp only [List.head?_cons, if_true]
  exact advance_takes c rest

/-- Another character than the one expected in a pair is refused. -/
lemma expectInPair_fails {c : Char} (h : rest.head? ≠ some c) : Fails (expectInPair c) rest := by
  refine (peek_takes rest).fails ?_
  cases rest with
  | nil => exact fail_fails _
  | cons d rest =>
    have hd : d ≠ c := fun heq => h (congrArg some heq)
    simp only [List.head?_cons, if_neg hd]
    exact fail_fails _

/-- **A mark behind a reverse solidus is read as what it stands for.** -/
lemma escape_short {mark : Char} (h : (Piece.short mark).WellFormed) :
    Takes escape (mark :: rest) (shortChar mark) rest := by
  refine (peek_takes (mark :: rest)).bind ?_
  simp only [Piece.WellFormed, List.mem_cons, List.not_mem_nil, or_false] at h
  rcases h with rfl | rfl | rfl | rfl | rfl | rfl | rfl | rfl <;>
    exact (advance_takes _ rest).bind (.pure _ rest)

/-- A unit that is no half of a pair is read as its character. -/
lemma numberedEscape_single {u : List Char} (hu : (Piece.unit u).WellFormed)
    (hlow : ¬ IsLow (unitOf u)) (hhigh : ¬ IsHigh (unitOf u)) :
    Takes numberedEscape (u ++ rest) (Char.ofNat (unitOf u)) rest := by
  refine (fourHex_takes hu.1 hu.2).bind ?_
  simp only [IsLow, IsHigh] at hlow hhigh
  simp only [if_neg hlow, if_neg hhigh]
  exact .pure _ rest

/-- The second half of a pair does not come first. -/
lemma numberedEscape_low {u : List Char} (hu : (Piece.unit u).WellFormed)
    (hlow : IsLow (unitOf u)) : Fails numberedEscape (u ++ rest) := by
  refine (fourHex_takes hu.1 hu.2).fails ?_
  simp only [IsLow] at hlow
  simp only [if_pos hlow]
  exact failHere_fails _

/-- Behind the first half of a pair the second one is read. -/
lemma numberedEscape_high {u cs : List Char} {o : Option (Char × List Char)}
    (hu : (Piece.unit u).WellFormed) (hlow : ¬ IsLow (unitOf u)) (hhigh : IsHigh (unitOf u))
    (hsecond : Reads (do
      expectInPair '\\'
      expectInPair 'u'
      let second ← fourHex
      if IsLow second then pure (pair (unitOf u) second) else failHere .loneSurrogate) cs o) :
    Reads numberedEscape (u ++ cs) o := by
  refine (fourHex_takes hu.1 hu.2).reads ?_
  simp only [IsLow, IsHigh] at hlow hhigh
  simp only [if_neg hlow, if_pos hhigh]
  exact hsecond

/-- Two halves of a pair are read as its character, and a unit that is no second half is refused. -/
lemma numberedEscape_pair {u v : List Char} (hu : (Piece.unit u).WellFormed)
    (hv : (Piece.unit v).WellFormed) (hlow : ¬ IsLow (unitOf u)) (hhigh : IsHigh (unitOf u))
    (rest : List Char) :
    Reads numberedEscape (u ++ '\\' :: 'u' :: (v ++ rest))
      (if IsLow (unitOf v) then some (pair (unitOf u) (unitOf v), rest) else none) := by
  refine numberedEscape_high hu hlow hhigh ((expectInPair_takes '\\').reads
    ((expectInPair_takes 'u').reads ((fourHex_takes hv.1 hv.2).reads ?_)))
  split_ifs with hsecond
  · exact .pure _ rest
  · exact failHere_fails _

/-- The first half of a pair does not stand alone. -/
lemma numberedEscape_alone {u cs : List Char} (hu : (Piece.unit u).WellFormed)
    (hlow : ¬ IsLow (unitOf u)) (hhigh : IsHigh (unitOf u))
    (hcs : cs.head? ≠ some '\\' ∨ ∃ d ds, cs = '\\' :: d :: ds ∧ d ≠ 'u') :
    Fails numberedEscape (u ++ cs) := by
  refine numberedEscape_high (o := none) hu hlow hhigh ?_
  rcases hcs with hhead | ⟨d, ds, rfl, hd⟩
  · exact (expectInPair_fails hhead).bind
  · refine (expectInPair_takes '\\').fails (expectInPair_fails ?_).bind
    exact fun h => hd (Option.some.inj h)

/-- A numbered escape is read behind its mark. -/
lemma escape_unit {cs : List Char} {o : Option (Char × List Char)}
    (h : Reads numberedEscape cs o) : Reads escape ('u' :: cs) o :=
  (peek_takes ('u' :: cs)).reads ((advance_takes 'u' cs).reads h)

/-! ### Whole strings -/

section

variable {rounds : Nat} (hrounds : 0 < rounds) {seen cs : List Char}
  {o : Option (String × List Char)}

include hrounds

/-- A string ends with its quote. -/
lemma stringRest_end (seen rest : List Char) :
    Takes (stringRest rounds seen) ('"' :: rest) (String.ofList seen.reverse) rest := by
  obtain ⟨n, rfl⟩ := Nat.exists_eq_add_one.mpr hrounds
  exact (peek_takes ('"' :: rest)).bind ((advance_takes '"' rest).bind (.pure _ rest))

/-- A character that stands for itself is read. -/
lemma stringRest_plain {c : Char} (hc : (Piece.plain c).WellFormed)
    (h : Reads (stringRest (rounds - 1) (c :: seen)) cs o) :
    Reads (stringRest rounds seen) (c :: cs) o := by
  obtain ⟨n, rfl⟩ := Nat.exists_eq_add_one.mpr hrounds
  obtain ⟨hcontrol, hquote, hescape⟩ := hc
  refine (peek_takes (c :: cs)).reads ?_
  rw [List.head?_cons]
  split
  next heq => cases heq
  next heq => exact absurd (Option.some.inj heq) hquote
  next heq => exact absurd (Option.some.inj heq) hescape
  next d hquote' hescape' heq =>
    obtain rfl := Option.some.inj heq
    rw [if_neg (Nat.not_lt.mpr hcontrol)]
    exact (advance_takes c cs).reads h

/-- An escape is read, and the string goes on behind it. -/
lemma stringRest_escape {d : Char} {behind : List Char} (hescape : Takes escape cs d behind)
    (h : Reads (stringRest (rounds - 1) (d :: seen)) behind o) :
    Reads (stringRest rounds seen) ('\\' :: cs) o := by
  obtain ⟨n, rfl⟩ := Nat.exists_eq_add_one.mpr hrounds
  exact (peek_takes ('\\' :: cs)).reads ((advance_takes '\\' cs).reads (hescape.reads h))

/-- A string is refused with an escape in it. -/
lemma stringRest_fails (h : Fails escape cs) : Fails (stringRest rounds seen) ('\\' :: cs) := by
  obtain ⟨n, rfl⟩ := Nat.exists_eq_add_one.mpr hrounds
  exact (peek_takes ('\\' :: cs)).fails ((advance_takes '\\' cs).fails h.bind)

end

/-- What stands behind the first half of a pair is not the mark of a unit, if no unit follows. -/
lemma not_unit_ahead {pieces : List Piece} (hpieces : ∀ p ∈ pieces, p.WellFormed)
    (hunit : ∀ v behind, pieces ≠ .unit v :: behind) (rest : List Char) :
    (piecesText pieces ++ '"' :: rest).head? ≠ some '\\' ∨
      ∃ d ds, piecesText pieces ++ '"' :: rest = '\\' :: d :: ds ∧ d ≠ 'u' := by
  cases pieces with
  | nil =>
    left
    show some '"' ≠ some '\\'
    decide
  | cons piece behind =>
    have hpiece := hpieces piece List.mem_cons_self
    cases piece with
    | plain c =>
      left
      exact fun h => hpiece.2.2 (Option.some.inj h)
    | short mark =>
      right
      refine ⟨mark, piecesText behind ++ '"' :: rest, rfl, ?_⟩
      rintro rfl
      have hmem : 'u' ∈ ['"', '\\', '/', 'b', 'f', 'n', 'r', 't'] := hpiece
      exact absurd hmem (by decide)
    | unit v => exact absurd rfl (hunit v behind)

/-- A character read goes in front of those that follow it. -/
lemma map_seen (o : Option (List Char)) (d : Char) (seen : List Char) :
    (o.map (d :: ·)).map (fun s => (String.ofList (seen.reverse ++ s), rest)) =
      o.map fun s => (String.ofList ((d :: seen).reverse ++ s), rest) := by
  rw [Option.map_map]
  refine congrArg (Option.map · o) (funext fun s => ?_)
  rw [Function.comp_apply, List.reverse_cons, List.append_assoc, List.singleton_append]

/-- **The rest of a string is read as the characters that its pieces stand for**, in more rounds
than it has characters.

**Proof sketch.** Induction along the decoding of the pieces. Each of them takes a round, and a pair
takes one for two. -/
lemma stringRest_reads {pieces : List Piece} (hpieces : ∀ p ∈ pieces, p.WellFormed) {rounds : Nat}
    (hrounds : (piecesText pieces).length < rounds) (seen : List Char) :
    Reads (stringRest rounds seen) (piecesText pieces ++ '"' :: rest)
      ((decode pieces).map fun s => (String.ofList (seen.reverse ++ s), rest)) := by
  have hpos : 0 < rounds := by omega
  have hlength : ∀ (p : Piece) (behind : List Piece),
      (piecesText (p :: behind)).length = p.text.length + (piecesText behind).length :=
    fun p behind => by rw [piecesText, List.flatMap_cons, List.length_append, piecesText]
  fun_induction decode pieces generalizing rounds seen with
  | case1 =>
    have hend := stringRest_end hpos seen rest
    rw [Option.map_some, List.append_nil]
    exact hend
  | case2 c behind ih =>
    obtain ⟨hc, hbehind⟩ := List.forall_mem_cons.mp hpieces
    rw [hlength, Piece.text, List.length_singleton] at hrounds
    rw [map_seen, piecesText_cons_append]
    exact stringRest_plain hpos hc (ih hbehind (by omega) (c :: seen) (by omega))
  | case3 mark behind ih =>
    obtain ⟨hmark, hbehind⟩ := List.forall_mem_cons.mp hpieces
    rw [hlength, Piece.text, List.length_cons, List.length_singleton] at hrounds
    rw [map_seen, piecesText_cons_append]
    exact stringRest_escape hpos (escape_short hmark)
      (ih hbehind (by omega) (shortChar mark :: seen) (by omega))
  | case4 u behind hlow =>
    have hu := (List.forall_mem_cons.mp hpieces).1
    rw [piecesText_cons_append]
    exact stringRest_fails hpos (escape_unit (o := none) (numberedEscape_low hu hlow))
  | case5 u hlow hhigh v behind hsecond ih =>
    obtain ⟨hu, hv, hbehind⟩ := by simpa only [List.forall_mem_cons] using hpieces
    rw [hlength, hlength, Piece.text, Piece.text] at hrounds
    simp only [List.length_cons] at hrounds
    have hpair := numberedEscape_pair hu hv hlow hhigh (piecesText behind ++ '"' :: rest)
    rw [if_pos hsecond] at hpair
    rw [map_seen, piecesText_cons_append, piecesText_cons_append]
    exact stringRest_escape hpos (escape_unit hpair)
      (ih hbehind (by omega) (pair (unitOf u) (unitOf v) :: seen) (by omega))
  | case6 u hlow hhigh v behind hsecond =>
    obtain ⟨hu, hv, hbehind⟩ := by simpa only [List.forall_mem_cons] using hpieces
    have hpair := numberedEscape_pair hu hv hlow hhigh (piecesText behind ++ '"' :: rest)
    rw [if_neg hsecond] at hpair
    rw [piecesText_cons_append, piecesText_cons_append]
    exact stringRest_fails hpos (escape_unit hpair)
  | case7 u behind hlow hhigh hunit =>
    obtain ⟨hu, hbehind⟩ := List.forall_mem_cons.mp hpieces
    have halone := numberedEscape_alone hu hlow hhigh (not_unit_ahead hbehind hunit rest)
    rw [piecesText_cons_append]
    exact stringRest_fails hpos (escape_unit (o := none) halone)
  | case8 u behind hlow hhigh ih =>
    obtain ⟨hu, hbehind⟩ := List.forall_mem_cons.mp hpieces
    rw [hlength, Piece.text] at hrounds
    simp only [List.length_cons] at hrounds
    have hsingle : Reads numberedEscape (u ++ (piecesText behind ++ '"' :: rest))
        (some (Char.ofNat (unitOf u), piecesText behind ++ '"' :: rest)) :=
      numberedEscape_single hu hlow hhigh
    rw [map_seen, piecesText_cons_append]
    exact stringRest_escape hpos (escape_unit hsingle)
      (ih hbehind (by omega) (Char.ofNat (unitOf u) :: seen) (by omega))

/-- **A string is read as the characters that its pieces stand for**, and refused if there are
none. -/
theorem string_reads {pieces : List Piece} (hpieces : ∀ p ∈ pieces, p.WellFormed)
    (rest : List Char) :
    Reads string (piecesText pieces ++ '"' :: rest)
      ((decode pieces).map fun s => (String.ofList s, rest)) := by
  refine (remaining_takes _).reads (stringRest_reads hpieces ?_ [])
  rw [List.length_append, List.length_cons]
  omega

end

end Formula.Json.Reader
