import Formula.Proofs.Lexical
import Formula.Proofs.Lockstep.Couplings

set_option relaxedAutoImplicit false
set_option autoImplicit false

/-!
# Steps

Evaluation as equations in the first character ahead. The rest of a chain is read in at most so many
rounds, and there are always enough of them: each round reads an operator, and neither operators nor
operands give characters back. So the number of rounds is left out of the equations.

## Main definitions

* `Formula.Scanner.level` — the scanner of operands one level deeper, if there is such a level.
* `Formula.Scanner.links` — the rest of a chain, in as many rounds as it takes.

## Main results

* `Formula.Scanner.chain_eq` — a chain is an operand and links.
* `Formula.Scanner.links_settle`, `Formula.Scanner.links_nil`, `Formula.Scanner.links_close`,
  `Formula.Scanner.links_comma`, `Formula.Scanner.links_operator` — how links are read.
* `Formula.Scanner.operand_digit`, `Formula.Scanner.operand_alpha`, `Formula.Scanner.operand_mark`,
  `Formula.Scanner.operand_open`, `Formula.Scanner.operand_plus`, `Formula.Scanner.operand_minus`,
  `Formula.Scanner.operand_close` — how operands are read.
-/

namespace Formula

variable {ω σ α β : Type}

/-- **What lies behind the blanks ahead** of a state: the end of the text, or a character that is no
blank. -/
lemma Running.exists_settle (s : Running σ) :
    ∃ (p : Nat) (w cs : List Char), Blanks w ∧ s.cursor.rest = w ++ cs ∧
      (∀ c ∈ cs.head?, Text.isBlank c = false) ∧
      s.settle = .facing p cs s.depth s.host :=
  ⟨_, s.cursor.rest.takeWhile Text.isBlank, s.cursor.rest.dropWhile Text.isBlank,
    List.all_eq_true.mp List.all_takeWhile, List.takeWhile_append_dropWhile.symm, s.head_settle,
    rfl⟩

namespace Scanner

/-- Two sequences with the same first part agree if they go on alike from its value. -/
lemma bind_congr {m : Scanner σ α} {f g : α → Scanner σ β} {s : Running σ}
    (h : ∀ a t, m s = .ok a t → f a t = g a t) : (m >>= f) s = (m >>= g) s := by
  rw [bind_apply, bind_apply]
  cases hm : m s with
  | ok a t => exact h a t hm
  | error e t => rfl

/-- An operator has at least one character. -/
lemma length_rest_of_operator {c : Char} {cs : List Char} {p d : Nat} {h : σ} {op : Operator}
    {t : Running σ} (hrun : operator c (.facing p (c :: cs) d h) = .ok op t) :
    t.cursor.rest.length ≤ cs.length := by
  obtain ⟨token, hmem, hrest, -, -⟩ := spelling_of_operator hrun
  obtain ⟨c', tail, rfl, -⟩ := Operator.head_of_mem_spellings hmem
  have hlength := congrArg List.length hrest
  simp only [List.length_cons, List.length_append] at hlength
  omega

section

variable (env : Env ω σ) (levels : Nat) (scope : Scope)

/-- **One round more is never needed** when there are as many as characters ahead.

**Proof sketch.** Induction on the rounds. With none of them nothing is ahead. Otherwise the blanks
ahead do not matter, and behind them an operator takes at least one character, so the induction
hypothesis applies behind its right operand. -/
lemma chainRest_succ (n : Nat) (r : Float) (s : Running σ) (hn : s.cursor.rest.length ≤ n) :
    chainRest (operand env levels) scope (n + 1) r s =
      chainRest (operand env levels) scope n r s := by
  induction n generalizing r s with
  | zero =>
    obtain ⟨⟨⟨p, cs⟩, d⟩, h⟩ := s
    obtain rfl : cs = [] := List.length_eq_zero_iff.mp (Nat.le_zero.mp hn)
    rw [chainRest_nil, chainRest_nil]
  | succ n ih =>
    rw [← chainRest_settle, ← chainRest_settle _ _ n]
    obtain ⟨p, w, cs, -, hrest, hhead, hsettle⟩ := s.exists_settle
    rw [hsettle]
    cases cs with
    | nil => rw [chainRest_nil, chainRest_nil]
    | cons c cs =>
      have hlength : cs.length ≤ n := by
        rw [hrest, List.length_append, List.length_cons] at hn
        omega
      rw [chainRest_cons _ (hhead c rfl), chainRest_cons _ (hhead c rfl)]
      split_ifs
      · rfl
      · rfl
      · refine bind_congr fun op t hop => bind_congr fun x u hx => ih _ _ ?_
        have hop' := length_rest_of_operator hop
        have hx' := (operand_suffix env levels hx).length_le
        omega

/-- The number of rounds does not matter when there are as many as characters ahead. -/
lemma chainRest_of_le {n m : Nat} (r : Float) (s : Running σ) (hn : s.cursor.rest.length ≤ n)
    (hm : n ≤ m) : chainRest (operand env levels) scope m r s =
      chainRest (operand env levels) scope n r s := by
  induction hm with
  | refl => rfl
  | step hm ih => rw [chainRest_succ env levels scope _ r s (Nat.le_trans hn hm), ih]

/-- **The rest of a chain**, in as many rounds as it takes. -/
def links (r : Float) : Scanner σ (Float × Ending) := fun s =>
  chainRest (operand env levels) scope (s.cursor.rest.length + 1) r s

/-- With as many rounds as characters ahead the rest of a chain is read. -/
lemma chainRest_eq_links {n : Nat} (r : Float) (s : Running σ) (hn : s.cursor.rest.length ≤ n) :
    chainRest (operand env levels) scope n r s = links env levels scope r s := by
  rw [links, chainRest_of_le env levels scope r s (Nat.le_refl _) hn,
    chainRest_of_le env levels scope r s (Nat.le_refl _) (Nat.le_succ _)]

/-- **A chain is an operand and links.** -/
lemma chain_eq : chain (operand env levels) scope = operand env levels >>= links env levels scope :=
  funext fun _ => bind_congr fun x t _ =>
    chainRest_eq_links env levels scope x t (Nat.le_refl _)

/-- The blanks ahead do not matter. -/
lemma links_settle (r : Float) (s : Running σ) :
    links env levels scope r s.settle = links env levels scope r s := by
  have hle := s.length_rest_settle_le
  rw [← chainRest_eq_links env levels scope r s.settle (Nat.le_succ_of_le hle),
    chainRest_settle]
  rfl

/-- States that differ in the blanks ahead only have the same links. -/
lemma links_congr {s t : Running σ} (h : s.settle = t.settle) (r : Float) :
    links env levels scope r s = links env levels scope r t := by
  rw [← links_settle, h, links_settle]

/-- Blanks ahead are moved over. -/
lemma links_blanks {w : List Char} (hw : Blanks w) (r : Float) (p : Nat) (cs : List Char) (d : Nat)
    (h : σ) : links env levels scope r (.facing p (w ++ cs) d h) =
      links env levels scope r (.facing (p + w.length) cs d h) :=
  links_congr env levels scope (Running.settle_blanks hw p cs d h) r

/-- Links end with the text only in the scope of a whole text. -/
lemma links_nil (r : Float) (p d : Nat) (h : σ) :
    links env levels scope r (.facing p [] d h) = endOfText scope r (.facing p [] d h) :=
  chainRest_nil _ _ _ _ _ _ _

/-- Links end with a closing parenthesis. -/
lemma links_close (r : Float) (p : Nat) (cs : List Char) (d : Nat) (h : σ) :
    links env levels scope r (.facing p (')' :: cs) d h) =
      (closeParen >>= fun _ => pure (r, .close)) (.facing p (')' :: cs) d h) := by
  rw [links, chainRest_cons _ (by decide), if_pos rfl]

/-- The links of an argument end with a comma. -/
lemma links_comma (r : Float) (p : Nat) (cs : List Char) (d : Nat) (h : σ) :
    links env levels .argument r (.facing p (',' :: cs) d h) =
      .ok (r, .comma) (.facing (p + 1) cs d h) := by
  rw [links, chainRest_cons _ (by decide), if_neg (by decide), if_pos ⟨rfl, rfl⟩]
  rfl

/-- **A link is an operator and an operand**, and further links follow. -/
lemma links_operator {c : Char} (hc : Text.isBlank c = false) (hclose : c ≠ ')')
    (hcomma : ¬ (c = ',' ∧ scope = .argument)) (r : Float) (p : Nat) (cs : List Char) (d : Nat)
    (h : σ) : links env levels scope r (.facing p (c :: cs) d h) =
      (operator c >>= fun op => operand env levels >>= fun right =>
        links env levels scope (op.apply r right)) (.facing p (c :: cs) d h) := by
  rw [links, chainRest_cons _ hc, if_neg hclose, if_neg hcomma]
  refine bind_congr fun op t hop => bind_congr fun x u hx => chainRest_eq_links _ _ _ _ _ ?_
  have hop' := length_rest_of_operator hop
  have hx' := (operand_suffix env levels hx).length_le
  show u.cursor.rest.length ≤ cs.length + 1
  omega

/-! ## Operands -/

/-- **Operands one level deeper**, if there is such a level. -/
def level : Nat → Option (Scanner σ Float)
  | 0 => none
  | levels + 1 => some (operand env levels)

/-- An operand is read with the next level at hand. -/
lemma operand_eq : operand env levels = operandWith env (level env levels) := by
  cases levels <;> rfl

/-- The blanks ahead do not matter. -/
lemma operand_settle (s : Running σ) : operand env levels s.settle = operand env levels s := by
  rw [operand_eq, operandWith_settle]

/-- What is nested gives a value only on a level below. -/
lemma nested_eq_ok {body : Scanner σ Float → Scanner σ α} {s t : Running σ} {a : α} :
    nested env (level env levels) body s = .ok a t ↔
      ∃ l, levels = l + 1 ∧ body (operand env l) s = .ok a t := by
  cases levels with
  | zero =>
    constructor
    · intro hrun
      cases hrun
    · rintro ⟨l, hl, -⟩
      cases hl
  | succ l =>
    constructor
    · exact fun hrun => ⟨l, rfl, hrun⟩
    · rintro ⟨_, ⟨⟩, hrun⟩
      exact hrun

variable (p : Nat) (cs : List Char) (d : Nat) (h : σ)

/-- A digit starts a literal. -/
lemma operand_digit {c : Char} (hc : c.isDigit = true) :
    operand env levels (.facing p (c :: cs) d h) = number (.facing p (c :: cs) d h) := by
  have hblank : Text.isBlank c = false :=
    Text.isBlank_of_isAlphanum (by rw [Char.isAlphanum, hc, Bool.or_true])
  rw [operand_eq, operandWith_cons env _ hblank, if_pos hc]

/-- A letter starts a call. -/
lemma operand_alpha {c : Char} (hc : c.isAlpha = true) :
    operand env levels (.facing p (c :: cs) d h) =
      call env (level env levels) (.facing p (c :: cs) d h) := by
  have hblank : Text.isBlank c = false :=
    Text.isBlank_of_isAlphanum (by rw [Char.isAlphanum, hc, Bool.true_or])
  have hdigit : ¬ c.isDigit = true := by simp [Text.isDigit_of_isAlpha hc]
  rw [operand_eq, operandWith_cons env _ hblank, if_neg hdigit, if_pos hc]

/-- **A call starts with the name of a function**, which its arguments are read for. -/
lemma operand_call {f : Builtin} {name w : List Char} (hname : Text.lower name = f.name.toList)
    (hw : Blanks w) :
    operand env levels (.facing p (name ++ (w ++ '(' :: cs)) d h) =
      applied env (level env levels) f (.facing (p + name.length + w.length + 1) cs (d + 1) h) := by
  rw [← call_text env (level env levels) hname hw]
  obtain ⟨c, tail, rfl, hc⟩ := Builtin.head_of_lower hname
  exact operand_alpha env levels p _ d h hc

/-- A mark starts a reference. -/
lemma operand_mark :
    operand env levels (.facing p ('$' :: cs) d h) = reference env (.facing (p + 1) cs d h) := by
  rw [operand_eq, operandWith_cons env _ (by decide)]
  rfl

/-- An opening parenthesis starts a group. -/
lemma operand_open :
    operand env levels (.facing p ('(' :: cs) d h) =
      (nested env (level env levels) (fun one => chain one .group) >>= fun r => pure r.1)
        (.facing (p + 1) cs (d + 1) h) := by
  rw [operand_eq, operandWith_cons env _ (by decide)]
  rfl

/-- A plus sign stands before an operand one level deeper. -/
lemma operand_plus :
    operand env levels (.facing p ('+' :: cs) d h) =
      nested env (level env levels) id (.facing (p + 1) cs d h) := by
  rw [operand_eq, operandWith_cons env _ (by decide)]
  rfl

/-- A minus sign negates an operand one level deeper. -/
lemma operand_minus :
    operand env levels (.facing p ('-' :: cs) d h) =
      (nested env (level env levels) id >>= fun x => pure (-x)) (.facing (p + 1) cs d h) := by
  rw [operand_eq, operandWith_cons env _ (by decide)]
  rfl

/-- An operand is left out before a closing parenthesis. -/
lemma operand_close :
    operand env levels (.facing p (')' :: cs) d h) = .ok 0.0 (.facing p (')' :: cs) d h) := by
  rw [operand_eq, operandWith_cons env _ (by decide)]
  rfl

/-- Nothing else starts an operand. -/
lemma operand_other {c : Char} (hc : Text.isBlank c = false) (hdigit : c.isDigit = false)
    (halpha : c.isAlpha = false) (hother : c ∉ ['$', '(', '+', '-', ')']) :
    operand env levels (.facing p (c :: cs) d h) =
      .error (.malformed p (.unexpected c)) (.facing p (c :: cs) d h) := by
  simp only [List.mem_cons, List.not_mem_nil, or_false, not_or] at hother
  obtain ⟨hmark, hopen, hplus, hminus, hclose⟩ := hother
  rw [operand_eq, operandWith_cons env _ hc]
  simp only [hdigit, halpha, hmark, hopen, hplus, hminus, hclose, if_false, Bool.false_eq_true]
  rfl

/-! ## Calls -/

/-- One argument is admitted unless there must be two. -/
lemma admits_one {a : Arity} (ha : a ≠ .two) (x : Float) : a.admits (.one x) = true := by
  cases a with
  | two => exact absurd rfl ha
  | one | oneOrTwo => rfl

/-- Two arguments are admitted unless there must be one. -/
lemma admits_two {a : Arity} (ha : a ≠ .one) (x y : Float) : a.admits (.two x y) = true := by
  cases a with
  | one => exact absurd rfl ha
  | two | oneOrTwo => rfl

/-- **Nothing goes wrong in a call** with as many arguments as the function takes. -/
lemma invoke_apply {f : Builtin} {args : Arguments} (hargs : f.arity.admits args = true)
    (s : Running σ) :
    invoke env f args s = .ok ((f.call env.random args s.host).1.getD 0.0)
      { s with host := (f.call env.random args s.host).2 } := by
  rw [invoke, bind_of_ok (onHost_apply _ _)]
  have hsome := Builtin.call_isSome_iff env.random f args s.host
  rw [hargs] at hsome
  obtain ⟨x, hx⟩ := Option.isSome_iff_exists.mp hsome
  change (f.call env.random args s.host).1 = some x at hx
  rw [hx]
  rfl

end

end Scanner

end Formula
