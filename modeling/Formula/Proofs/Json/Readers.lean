import Formula.Proofs.Json.Grammar

set_option relaxedAutoImplicit false
set_option autoImplicit false

/-!
# What readers do on written texts

A reader either takes a text, gives a value and stands in front of the rest, or it fails; sometimes
it is enough to know what kind of value it gives, if any. How a sequence reads is put together from
what its parts do. Places are left out: they only tell where a fault was met.

## Main definitions

* `Formula.Json.Reader.Takes`, `Formula.Json.Reader.Fails`, `Formula.Json.Reader.Yields` — what a
  reader does on a text.
* `Formula.Json.Reader.Reads` — taking a text or failing, as an option tells.
* `Formula.Json.Reader.Continues` — going on as another reader.

## Main results

* `Formula.Json.Reader.Takes.continues` — a sequence goes on behind what its first part takes.
* `Formula.Json.Reader.peekToken_takes` — white space is read, and the character behind it is told.
-/

namespace Formula.Json.Reader

open Grammar

variable {ε α β : Type}

/-! ## Taking, failing and yielding -/

/-- **A reader takes a text**: it gives a value and stands in front of the rest. -/
def Takes (m : StateT Input (Except ε) α) (cs : List Char) (x : α) (rest : List Char) : Prop :=
  ∀ place, ∃ place', m ⟨place, cs⟩ = .ok (x, ⟨place', rest⟩)

/-- **A reader fails** on a text. -/
def Fails (m : StateT Input (Except ε) α) (cs : List Char) : Prop :=
  ∀ place, ∃ fault, m ⟨place, cs⟩ = .error fault

/-- **A reader yields a value of a kind** on a text, if it yields one. -/
def Yields (m : StateT Input (Except ε) α) (cs : List Char) (P : α → Prop) : Prop :=
  ∀ place x input, m ⟨place, cs⟩ = .ok (x, input) → P x

/-- **A reader goes on as another one** does from a rest of the text. -/
def Continues (m : StateT Input (Except ε) α) (cs : List Char) (m' : StateT Input (Except ε) α)
    (rest : List Char) : Prop :=
  ∀ place, ∃ place', m ⟨place, cs⟩ = m' ⟨place', rest⟩

/-- **A reader takes a text or fails**, as an option tells: it has the value and the rest. -/
def Reads (m : StateT Input (Except ε) α) (cs : List Char) : Option (α × List Char) → Prop
  | some (x, rest) => Takes m cs x rest
  | none => Fails m cs

/-- A sequence goes on with the value of its first part, or fails with it. -/
lemma bind_run (m : StateT Input (Except ε) α) (f : α → StateT Input (Except ε) β) (input : Input) :
    (m >>= f) input =
      match m input with
      | .ok (x, input') => f x input'
      | .error fault => .error fault := by
  show StateT.bind m f input = _
  unfold StateT.bind
  cases m input <;> rfl

section

variable {m : StateT Input (Except ε) α} {f : α → StateT Input (Except ε) β} {cs rest : List Char}
  {x : α}

/-- A value is given on the spot. -/
lemma Takes.pure (x : α) (cs : List Char) :
    Takes (pure x : StateT Input (Except ε) α) cs x cs :=
  fun place => ⟨place, rfl⟩

/-- **Behind what its first part takes a sequence goes on.** -/
lemma Takes.continues (h : Takes m cs x rest) : Continues (m >>= f) cs (f x) rest := by
  intro place
  obtain ⟨place', hrun⟩ := h place
  refine ⟨place', ?_⟩
  rw [bind_run, hrun]

/-- What goes on as something goes on goes on as well. -/
lemma Continues.trans {m₁ m₂ m₃ : StateT Input (Except ε) α} {cs₁ cs₂ cs₃ : List Char}
    (h : Continues m₁ cs₁ m₂ cs₂) (h' : Continues m₂ cs₂ m₃ cs₃) : Continues m₁ cs₁ m₃ cs₃ := by
  intro place
  obtain ⟨place', hrun⟩ := h place
  obtain ⟨place'', hrun'⟩ := h' place'
  exact ⟨place'', hrun.trans hrun'⟩

/-- What goes on as something reads what that does. -/
lemma Continues.reads {m' : StateT Input (Except ε) α} {o : Option (α × List Char)}
    (h : Continues m cs m' rest) (h' : Reads m' rest o) : Reads m cs o := by
  cases o <;>
  · intro place
    obtain ⟨place', hrun⟩ := h place
    rw [hrun]
    exact h' place'

/-- What goes on as something takes what that does. -/
lemma Continues.takes {m' : StateT Input (Except ε) α} {behind : List Char}
    (h : Continues m cs m' rest) (h' : Takes m' rest x behind) : Takes m cs x behind :=
  h.reads (o := some (x, behind)) h'

/-- What goes on as something yields what that does. -/
lemma Continues.yields {m' : StateT Input (Except ε) α} {P : α → Prop}
    (h : Continues m cs m' rest) (h' : Yields m' rest P) : Yields m cs P := by
  intro place y input hy
  obtain ⟨place', hrun⟩ := h place
  rw [hrun] at hy
  exact h' place' y input hy

/-- A sequence reads what its second part reads behind what the first one takes. -/
lemma Takes.reads {o : Option (β × List Char)} (h : Takes m cs x rest)
    (h' : Reads (f x) rest o) : Reads (m >>= f) cs o :=
  h.continues.reads h'

/-- A sequence takes a text if its parts take it one after the other. -/
lemma Takes.bind {y : β} {behind : List Char} (h : Takes m cs x rest)
    (h' : Takes (f x) rest y behind) : Takes (m >>= f) cs y behind :=
  h.reads (o := some (y, behind)) h'

/-- A sequence fails if its second part does, behind what the first part takes. -/
lemma Takes.fails (h : Takes m cs x rest) (h' : Fails (f x) rest) : Fails (m >>= f) cs :=
  h.reads (o := none) h'

/-- A sequence yields what its second part yields behind what the first one takes. -/
lemma Takes.yields {P : β → Prop} (h : Takes m cs x rest) (h' : Yields (f x) rest P) :
    Yields (m >>= f) cs P :=
  h.continues.yields h'

/-- A sequence fails if its first part does. -/
lemma Fails.bind (h : Fails m cs) : Fails (m >>= f) cs := by
  intro place
  obtain ⟨fault, hrun⟩ := h place
  exact ⟨fault, by rw [bind_run, hrun]⟩

/-- What is made of a value takes no text. -/
lemma Reads.map {o : Option (α × List Char)} (h : Reads m cs o) (f : α → β) :
    Reads (f <$> m) cs (o.map fun r => (f r.1, r.2)) := by
  rw [map_eq_pure_bind]
  cases o with
  | none => exact Fails.bind h
  | some r =>
    have htakes : Takes m cs r.1 r.2 := h
    exact htakes.bind (.pure (f r.1) r.2)

/-- A reader that fails yields anything. -/
lemma Fails.yields {P : α → Prop} (h : Fails m cs) : Yields m cs P := by
  intro place x input hx
  obtain ⟨fault, hrun⟩ := h place
  rw [hrun] at hx
  cases hx

/-- A value that is given on the spot is what is yielded. -/
lemma Yields.pure {P : α → Prop} (h : P x) :
    Yields (pure x : StateT Input (Except ε) α) cs P := by
  intro place y input hy
  cases hy
  exact h

/-- **A sequence yields what its second part yields** wherever the first one stops. -/
lemma Yields.bind {P : α → Prop} {Q : β → Prop} (h : Yields m cs P)
    (h' : ∀ x, P x → ∀ rest, Yields (f x) rest Q) : Yields (m >>= f) cs Q := by
  intro place y input hy
  rw [bind_run] at hy
  cases hrun : m ⟨place, cs⟩ with
  | error fault =>
    rw [hrun] at hy
    cases hy
  | ok r =>
    obtain ⟨x, place', rest⟩ := r
    rw [hrun] at hy
    exact h' x (h place x _ hrun) rest place' y input hy

/-- Whatever its first part does, a sequence yields what the second part always yields. -/
lemma Yields.behind {Q : β → Prop} (h : ∀ x rest, Yields (f x) rest Q) : Yields (m >>= f) cs Q :=
  Yields.bind (P := fun _ => True) (fun _ _ _ _ => trivial) fun x _ rest => h x rest

/-- A first part that may be left out does not matter to what is yielded. -/
lemma Yields.optional {b : Prop} [Decidable b] {m : StateT Input (Except ε) Unit}
    {f : Unit → StateT Input (Except ε) β} {Q : β → Prop} (h : ∀ rest, Yields (f ()) rest Q) :
    Yields (if b then m >>= f else f ()) cs Q := by
  split_ifs
  · exact .behind fun _ rest => h rest
  · exact h cs

/-- Another kind of value is yielded if it includes the one that is. -/
lemma Yields.imp {P Q : α → Prop} (h : Yields m cs P) (hPQ : ∀ x, P x → Q x) : Yields m cs Q :=
  fun place x input hx => hPQ x (h place x input hx)

/-- What is made of the values that are yielded. -/
lemma Yields.map {P : α → Prop} {Q : β → Prop} {f : α → β} (h : Yields m cs P)
    (hPQ : ∀ x, P x → Q (f x)) : Yields (f <$> m) cs Q := by
  rw [map_eq_pure_bind]
  exact h.bind fun x hx _ => .pure (hPQ x hx)

/-- **A reader that yields no value fails.** -/
lemma Yields.fails (h : Yields m cs fun _ => False) : Fails m cs := by
  intro place
  cases hrun : m ⟨place, cs⟩ with
  | error fault => exact ⟨fault, rfl⟩
  | ok r => exact (h place r.1 r.2 hrun).elim

/-- What takes a whole text gives its value. -/
lemma Takes.whole {text : String} (h : Takes m text.toList x rest) :
    m.run' (Input.ofText text) = .ok x := by
  obtain ⟨place, hrun⟩ := h ⟨1, 0⟩
  show (fun r => r.1) <$> m ⟨⟨1, 0⟩, text.toList⟩ = _
  rw [hrun]
  rfl

/-- What is yielded on a whole text is its value. -/
lemma Yields.whole {text : String} {P : α → Prop} (h : Yields m text.toList P)
    (hrun : m.run' (Input.ofText text) = .ok x) : P x := by
  change (fun r => r.1) <$> m ⟨⟨1, 0⟩, text.toList⟩ = _ at hrun
  cases hr : m ⟨⟨1, 0⟩, text.toList⟩ with
  | error fault =>
    rw [hr] at hrun
    cases hrun
  | ok r =>
    rw [hr] at hrun
    obtain rfl : r.1 = x := Except.ok.inj hrun
    exact h ⟨1, 0⟩ r.1 r.2 hr

/-- What fails on a whole text gives no value. -/
lemma Fails.whole {text : String} (h : Fails m text.toList) :
    ∃ fault, m.run' (Input.ofText text) = .error fault := by
  obtain ⟨fault, hrun⟩ := h ⟨1, 0⟩
  refine ⟨fault, ?_⟩
  show (fun r => r.1) <$> m ⟨⟨1, 0⟩, text.toList⟩ = _
  rw [hrun]
  rfl

end

/-! ## Single moves -/

section

variable {cs rest : List Char}

/-- Stopping in front of a character fails. -/
lemma fail_fails (cause : Cause) : Fails (fail cause : Reader α) cs :=
  fun _ => ⟨_, rfl⟩

/-- Stopping at a place fails. -/
lemma failHere_fails (cause : Cause) : Fails (failHere cause : Reader α) cs :=
  fun _ => ⟨_, rfl⟩

/-- The next character is told without reading it. -/
lemma peek_takes (cs : List Char) : Takes peek cs cs.head? cs :=
  fun place => ⟨place, rfl⟩

/-- A character is read. -/
lemma advance_takes (c : Char) (cs : List Char) : Takes advance (c :: cs) () cs :=
  fun _ => ⟨_, rfl⟩

/-- The number of characters left is told without reading them. -/
lemma remaining_takes (cs : List Char) : Takes remaining cs cs.length cs :=
  fun place => ⟨place, rfl⟩

/-- The digits ahead are told without reading them. -/
lemma peekDigits_takes (cs : List Char) : Takes peekDigits cs (cs.takeWhile Char.isDigit) cs :=
  fun place => ⟨place, rfl⟩

/-- So many characters are read. -/
lemma advanceBy_takes (read rest : List Char) :
    Takes (advanceBy read.length) (read ++ rest) () rest := by
  induction read with
  | nil => exact .pure () rest
  | cons c read ih => exact (advance_takes c (read ++ rest)).bind ih

/-- White space is read up to what is none. -/
lemma skipSpaces_takes {gap : List Char} (hgap : Spaces gap)
    (hrest : ∀ c ∈ rest.head?, isSpace c = false) : Takes skipSpaces (gap ++ rest) () rest := by
  intro place
  show ∃ place', Except.ok ((), Input.skipWhile.go isSpace place (gap ++ rest)) = _
  induction gap generalizing place with
  | nil =>
    refine ⟨place, ?_⟩
    cases rest with
    | nil => rfl
    | cons c rest =>
      have hc : isSpace c = false := hrest c rfl
      simp [Input.skipWhile.go, hc]
  | cons c gap ih =>
    have hc : isSpace c = true := hgap c List.mem_cons_self
    obtain ⟨place', hrun⟩ := ih (fun d hd => hgap d (List.mem_cons_of_mem c hd)) (place.after c)
    refine ⟨place', ?_⟩
    rw [← hrun, List.cons_append, Input.skipWhile.go, if_pos hc]

/-- **The next character behind white space** is told, and the white space is read. -/
lemma peekToken_takes {gap : List Char} (hgap : Spaces gap)
    (hrest : ∀ c ∈ rest.head?, isSpace c = false) :
    Takes peekToken (gap ++ rest) rest.head? rest :=
  (skipSpaces_takes hgap hrest).bind (peek_takes rest)

/-- The next character is told behind white space, if it is none itself. -/
lemma peekToken_cons {gap : List Char} (hgap : Spaces gap) {c : Char} (hc : isSpace c = false)
    (rest : List Char) : Takes peekToken (gap ++ c :: rest) (some c) (c :: rest) := by
  refine peekToken_takes hgap fun d hd => ?_
  obtain rfl := Option.some.inj hd
  exact hc

end

end Formula.Json.Reader
