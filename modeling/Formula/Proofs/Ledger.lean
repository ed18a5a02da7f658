import Formula.Pool
import Mathlib

set_option relaxedAutoImplicit false
set_option autoImplicit false

/-!
# Ledgers

A pool does not tell its instances apart, so that none is in two places at once cannot be said of a
desk alone. A ledger follows each instance by a **tag**, which the desk does not look at: a number,
which it gets when it is made, and how often it has been recycled. Beside the desk the ledger keeps
how many instances have been made, which have been discarded, and an entry for every time that an
instance was handed out or came back. An instance counts as made when it bears a number that none
had before, and as discarded when it is not parked after it has come back; the ledger does not look
at how full the pool is.

## Main definitions

* `Formula.Desk.Move`, `Formula.Desk.play` — what is done at a desk, and a sequence of it.
* `Formula.Tagged` — an instance with its tag.
* `Formula.Ledger` — a desk of tagged instances, with what has become of them.
* `Formula.Ledger.Change` — all that a move can do.
* `Formula.Ledger.Balanced` — every instance that has been made is in one place.

## Main results

* `Formula.Ledger.items_play` — without the tags, a ledger's desk is played like any other.
* `Formula.Ledger.change_move` — a move of a balanced ledger is one of the changes.
* `Formula.Ledger.balanced_play` — every ledger that is kept from the start is balanced.
-/

namespace Formula

variable {α β : Type}

/-! ## Moves at a desk -/

/-- The pool of what a function makes of the parked instances. -/
def Pool.map (g : α → β) (pool : Pool α) : Pool β where
  capacity := pool.capacity
  parked := pool.parked.map g
  bounded := by simpa using pool.bounded

namespace Desk

/-- **What is done at a desk.** -/
inductive Move (α : Type) where
  /-- An instance is handed out. -/
  | acquire
  /-- The instance with a number is given back, if it is in use. -/
  | drop (slot : Nat)
  /-- The instance with a number is written to, if it is in use. -/
  | write (slot : Nat) (f : α → α)

/-- The instances in use. -/
def live (desk : Desk α) : List α := desk.held.reduceOption

/-- The desk of what a function makes of the instances. -/
def map (g : α → β) (desk : Desk α) : Desk β :=
  ⟨desk.pool.map g, desk.held.map (Option.map g)⟩

variable [Recyclable α] [Recyclable β]

/-- Makes a move. -/
def move (desk : Desk α) : Move α → Desk α
  | .acquire => desk.acquire
  | .drop slot => desk.drop slot
  | .write slot f => desk.write slot f

/-- **Makes moves in turn.** -/
def play (desk : Desk α) (moves : List (Move α)) : Desk α :=
  moves.foldl move desk

end Desk

/-! ## What a pool hands out and keeps -/

namespace Pool

variable {pool : Pool α}

/-- Two pools are the same if they park the same instances and have the same capacity. -/
lemma eq_of_parked {pool' : Pool α} (hcapacity : pool.capacity = pool'.capacity)
    (hparked : pool.parked = pool'.parked) : pool = pool' := by
  obtain ⟨capacity, parked, bounded⟩ := pool
  obtain ⟨capacity', parked', bounded'⟩ := pool'
  obtain rfl : capacity = capacity' := hcapacity
  obtain rfl : parked = parked' := hparked
  rfl

variable [Recyclable α]

/-- With nothing parked a new instance is handed out. -/
lemma acquire_of_nil (h : pool.parked = []) :
    pool.acquire = (Recyclable.recycle Recyclable.blank, pool) := by
  obtain ⟨capacity, parked, bounded⟩ := pool
  obtain rfl : parked = [] := h
  rfl

/-- The first of the parked instances is handed out. -/
lemma acquire_of_cons {x : α} {rest : List α} (h : pool.parked = x :: rest) :
    pool.acquire.1 = Recyclable.recycle x ∧ pool.acquire.2.parked = rest := by
  obtain ⟨capacity, parked, bounded⟩ := pool
  obtain rfl : parked = x :: rest := h
  exact ⟨rfl, rfl⟩

/-- An instance that comes back is parked in front of the others if there is room. -/
lemma parked_release (h : pool.idle < pool.capacity) (x : α) :
    (pool.release x).parked = Recyclable.recycle x :: pool.parked := by
  have hroom : pool.parked.length < pool.capacity := h
  simp only [release, put, hroom, dif_pos]

/-- A full pool is left as it is. -/
lemma release_of_full (h : ¬ pool.idle < pool.capacity) (x : α) : pool.release x = pool := by
  have hroom : ¬ pool.parked.length < pool.capacity := h
  simp only [release, put, hroom, dif_neg, not_false_eq_true]

variable [Recyclable β] {g : α → β}

/-- A pool hands out an instance before or after all are mapped. -/
lemma map_acquire (hblank : g Recyclable.blank = Recyclable.blank)
    (hrecycle : ∀ x, g (Recyclable.recycle x) = Recyclable.recycle (g x)) (pool : Pool α) :
    (pool.map g).acquire = (g pool.acquire.1, pool.acquire.2.map g) := by
  cases hparked : pool.parked with
  | nil =>
    have hmapped : (pool.map g).parked = [] := congrArg (List.map g) hparked
    rw [acquire_of_nil hparked, acquire_of_nil hmapped, hrecycle, hblank]
  | cons x rest =>
    have hmapped : (pool.map g).parked = g x :: rest.map g := congrArg (List.map g) hparked
    obtain ⟨hfirst, hrest⟩ := acquire_of_cons hparked
    obtain ⟨hfirst', hrest'⟩ := acquire_of_cons hmapped
    refine Prod.ext (by rw [hfirst', hfirst, hrecycle]) (eq_of_parked ?_ ?_)
    · rw [capacity_acquire]
      exact pool.capacity_acquire.symm
    · rw [hrest']
      exact (congrArg (List.map g) hrest).symm

/-- A pool takes an instance back before or after all are mapped. -/
lemma map_release (hrecycle : ∀ x, g (Recyclable.recycle x) = Recyclable.recycle (g x))
    (pool : Pool α) (x : α) : (pool.release x).map g = (pool.map g).release (g x) := by
  have hidle : (pool.map g).idle = pool.idle := List.length_map _
  by_cases hroom : pool.idle < pool.capacity
  · have hroom' : (pool.map g).idle < (pool.map g).capacity := by rwa [hidle]
    refine eq_of_parked ?_ ?_
    · rw [capacity_release]
      exact pool.capacity_release x
    · rw [parked_release hroom', ← hrecycle]
      exact congrArg (List.map g) (parked_release hroom x)
  · have hroom' : ¬ (pool.map g).idle < (pool.map g).capacity := by rwa [hidle]
    rw [release_of_full hroom, release_of_full hroom']

end Pool

/-! ## Functions that a desk does not notice -/

namespace Desk

variable [Recyclable α] [Recyclable β] {g : α → β}

omit [Recyclable α] [Recyclable β] in
/-- The instance with a number is mapped with all others. -/
lemma item?_map (g : α → β) (desk : Desk α) (slot : Nat) :
    (desk.map g).item? slot = (desk.item? slot).map g := by
  show ((desk.held.map (Option.map g))[slot]?).join = _
  rw [List.getElem?_map]
  unfold item?
  rcases desk.held[slot]? with _ | _ | x <;> rfl

/-- An instance is handed out before or after all are mapped. -/
lemma map_acquire (hblank : g Recyclable.blank = Recyclable.blank)
    (hrecycle : ∀ x, g (Recyclable.recycle x) = Recyclable.recycle (g x)) (desk : Desk α) :
    desk.acquire.map g = (desk.map g).acquire := by
  show (⟨desk.pool.acquire.2.map g, (desk.held ++ [some desk.pool.acquire.1]).map _⟩ : Desk β) =
    ⟨(desk.pool.map g).acquire.2, desk.held.map _ ++ [some (desk.pool.map g).acquire.1]⟩
  rw [Pool.map_acquire hblank hrecycle, List.map_append]
  rfl

/-- An instance is given back before or after all are mapped. -/
lemma map_drop (hrecycle : ∀ x, g (Recyclable.recycle x) = Recyclable.recycle (g x))
    (desk : Desk α) (slot : Nat) : (desk.drop slot).map g = (desk.map g).drop slot := by
  unfold drop
  rw [item?_map]
  cases desk.item? slot with
  | none => rfl
  | some x => simp [map, Pool.map_release hrecycle, List.map_set]

omit [Recyclable α] [Recyclable β] in
/-- An instance is written to before or after all are mapped. -/
lemma map_write {f : α → α} {f' : β → β} (hf : ∀ x, g (f x) = f' (g x)) (desk : Desk α)
    (slot : Nat) : (desk.write slot f).map g = (desk.map g).write slot f' := by
  have hcomm : Option.map g ∘ Option.map f = Option.map f' ∘ Option.map g := by
    funext o
    cases o with
    | none => rfl
    | some x => exact congrArg some (hf x)
  have hheld : (desk.held.modify slot (Option.map f)).map (Option.map g) =
      (desk.held.map (Option.map g)).modify slot (Option.map f') := by
    refine List.ext_getElem? fun i => ?_
    simp only [List.getElem?_map, List.getElem?_modify]
    split
    · rcases desk.held[i]? with _ | o
      · rfl
      · exact congrArg some (congrFun hcomm o)
    · rcases desk.held[i]? with _ | o <;> rfl
  simp only [map, write, hheld]

end Desk

/-! ## Tags -/

/-- **An instance with a tag.** -/
structure Tagged (α : Type) where
  /-- Its number: how many instances had been made before it. -/
  serial : Nat
  /-- How often it has been recycled. -/
  recycled : Nat
  /-- The instance itself. -/
  item : α

namespace Tagged

variable [Recyclable α]

/-- Recycles an instance, which is counted. -/
def recycle (x : Tagged α) : Tagged α := ⟨x.serial, x.recycled + 1, Recyclable.recycle x.item⟩

/-- A new instance. -/
def blank (serial : Nat) : Tagged α := ⟨serial, 0, Recyclable.blank⟩

omit [Recyclable α] in
/-- Writes to the instance behind the tag. -/
def onItem (f : α → α) (x : Tagged α) : Tagged α := { x with item := f x.item }

end Tagged

/-! ## Ledgers -/

/-- **An entry of a ledger.** -/
inductive Entry (α : Type) where
  /-- An instance was handed out. -/
  | issued (serial : Nat)
  /-- An instance came back as its holder left it. -/
  | returned (serial : Nat) (left : α)

/-- **A ledger**: a desk of tagged instances, with what has become of them. -/
structure Ledger (α : Type) where
  /-- The desk. -/
  desk : Desk (Tagged α)
  /-- How many instances have been made. -/
  made : Nat
  /-- The instances that have been discarded, the last first. -/
  discarded : List (Tagged α)
  /-- The entries, the last first. -/
  entries : List (Entry α)

namespace Ledger

/-- The ledger of a new desk. -/
def new (capacity : Nat) : Ledger α := ⟨Desk.new capacity, 0, [], []⟩

/-- The parked instances. -/
abbrev parked (l : Ledger α) : List (Tagged α) := l.desk.pool.parked

/-- All instances that are in use, parked or discarded. -/
def instances (l : Ledger α) : List (Tagged α) := l.desk.live ++ l.parked ++ l.discarded

/-- Writes to an instance in use. -/
def write (l : Ledger α) (slot : Nat) (f : α → α) : Ledger α :=
  { l with desk := l.desk.write slot (Tagged.onItem f) }

variable [Recyclable α]

/-- **Tagged instances can be used again**; one that is made gets the next number. -/
abbrev source (l : Ledger α) : Recyclable (Tagged α) := ⟨Tagged.blank l.made, Tagged.recycle⟩

/-- Hands out an instance, which has been made if it bears the next number. -/
def acquire (l : Ledger α) : Ledger α :=
  letI := l.source
  let x := l.desk.pool.acquire.1
  { l with
    desk := l.desk.acquire
    made := if x.serial = l.made then l.made + 1 else l.made
    entries := .issued x.serial :: l.entries }

/-- Takes back an instance, which has been discarded if it is not parked then. -/
def drop (l : Ledger α) (slot : Nat) : Ledger α :=
  letI := l.source
  match l.desk.item? slot with
  | none => { l with desk := l.desk.drop slot }
  | some x =>
    let desk := l.desk.drop slot
    { l with
      desk
      discarded := if x.serial ∈ desk.pool.parked.map Tagged.serial then l.discarded
        else x.recycle :: l.discarded
      entries := .returned x.serial x.item :: l.entries }

/-- Makes a move at the desk. -/
def move (l : Ledger α) : Desk.Move α → Ledger α
  | .acquire => l.acquire
  | .drop slot => l.drop slot
  | .write slot f => l.write slot f

/-- **Makes moves in turn.** -/
def play (l : Ledger α) (moves : List (Desk.Move α)) : Ledger α :=
  moves.foldl move l

/-- **Without the tags, a move of a ledger is one at its desk.** -/
lemma items_move (l : Ledger α) (m : Desk.Move α) :
    (l.move m).desk.map Tagged.item = (l.desk.map Tagged.item).move m := by
  let _ := l.source
  cases m with
  | acquire => exact Desk.map_acquire (g := Tagged.item) rfl (fun _ => rfl) l.desk
  | drop slot =>
    have hdesk : (l.drop slot).desk = l.desk.drop slot := by
      unfold drop
      cases l.desk.item? slot <;> rfl
    show (l.drop slot).desk.map Tagged.item = _
    rw [hdesk]
    exact Desk.map_drop (g := Tagged.item) (fun _ => rfl) l.desk slot
  | write slot f => exact Desk.map_write (g := Tagged.item) (fun _ => rfl) l.desk slot

/-- **Without the tags, a ledger's desk is played like any other.** -/
theorem items_play (l : Ledger α) (moves : List (Desk.Move α)) :
    (l.play moves).desk.map Tagged.item = (l.desk.map Tagged.item).play moves := by
  induction moves generalizing l with
  | nil => rfl
  | cons m moves ih => exact (ih (l.move m)).trans (congrArg (Desk.play · moves) (l.items_move m))

/-! ## What a move can do -/

/-- **Every instance that has been made is in one place**: the numbers of all instances in use,
parked and discarded are those below the number made, each of them once. -/
def Balanced (l : Ledger α) : Prop :=
  (l.instances.map Tagged.serial).Perm (List.range l.made)

/-- **All that a move can do** to a ledger. -/
inductive Change (l : Ledger α) : Ledger α → Prop where
  /-- Nothing is parked, and a new instance is handed out. -/
  | made : l.parked = [] →
      Change l ⟨⟨l.desk.pool, l.desk.held ++ [some (Tagged.blank l.made).recycle]⟩, l.made + 1,
        l.discarded, .issued l.made :: l.entries⟩
  /-- The first of the parked instances is handed out. -/
  | reissued {x : Tagged α} {rest : List (Tagged α)} {pool : Pool (Tagged α)} :
      l.parked = x :: rest → pool.capacity = l.desk.pool.capacity → pool.parked = rest →
      Change l ⟨⟨pool, l.desk.held ++ [some x.recycle]⟩, l.made, l.discarded,
        .issued x.serial :: l.entries⟩
  /-- There is room, and an instance is parked in front of the others. -/
  | returned {slot : Nat} {x : Tagged α} {pool : Pool (Tagged α)} :
      l.desk.item? slot = some x → l.desk.pool.idle < l.desk.pool.capacity →
      pool.capacity = l.desk.pool.capacity → pool.parked = x.recycle :: l.parked →
      Change l ⟨⟨pool, l.desk.held.set slot none⟩, l.made, l.discarded,
        .returned x.serial x.item :: l.entries⟩
  /-- The pool is full, and an instance is discarded. -/
  | discarded {slot : Nat} {x : Tagged α} :
      l.desk.item? slot = some x → ¬ l.desk.pool.idle < l.desk.pool.capacity →
      Change l ⟨⟨l.desk.pool, l.desk.held.set slot none⟩, l.made, x.recycle :: l.discarded,
        .returned x.serial x.item :: l.entries⟩
  /-- An instance in use is written to. -/
  | written (slot : Nat) (f : α → α) : Change l (l.write slot f)
  /-- There is no such instance in use. -/
  | idle : Change l l

end Ledger

/-! ## Instances in use -/

/-- An instance in use is one of those held, and the others stay when it is given back. -/
lemma Desk.live_perm {desk : Desk α} {slot : Nat} {x : α} (h : desk.item? slot = some x) :
    desk.live.Perm (x :: (desk.held.set slot none).reduceOption) := by
  obtain ⟨pool, held⟩ := desk
  have hslot : held[slot]? = some (some x) := Option.join_eq_some_iff.mp h
  show held.reduceOption.Perm _
  clear h
  induction held generalizing slot with
  | nil => cases hslot
  | cons o held ih =>
    cases slot with
    | zero =>
      obtain rfl : o = some x := by simpa using hslot
      exact List.Perm.refl _
    | succ slot =>
      have hrest := ih (by simpa using hslot)
      cases o with
      | none => exact hrest
      | some y => exact (hrest.cons y).trans (.swap x y _)

/-- An instance in use is among those in use. -/
lemma Desk.mem_live {desk : Desk α} {slot : Nat} {x : α} (h : desk.item? slot = some x) :
    x ∈ desk.live :=
  (live_perm h).symm.subset List.mem_cons_self

/-- What a write keeps of an instance, it keeps of all in use. -/
lemma Desk.live_write_map (desk : Desk α) (slot : Nat) {f : α → α} {g : α → β}
    (hg : ∀ x, g (f x) = g x) : (desk.write slot f).live.map g = desk.live.map g := by
  obtain ⟨pool, held⟩ := desk
  show (held.modify slot (Option.map f)).reduceOption.map g = held.reduceOption.map g
  induction held generalizing slot with
  | nil => cases slot <;> rfl
  | cons o held ih =>
    cases slot with
    | zero =>
      cases o with
      | none => rfl
      | some x => exact congrArg (· :: held.reduceOption.map g) (hg x)
    | succ slot =>
      cases o with
      | none => exact ih slot
      | some x => exact congrArg (g x :: ·) (ih slot)

namespace Ledger

/-- The instances in use when one more has been handed out. -/
lemma reduceOption_handed (held : List (Option α)) (x : α) :
    (held ++ [some x]).reduceOption = held.reduceOption ++ [x] := by
  rw [List.reduceOption_append]
  rfl

/-! ## Balance -/

namespace Balanced

variable {l : Ledger α} (h : l.Balanced)

include h

/-- No number is borne by two instances. -/
lemma nodup : (l.instances.map Tagged.serial).Nodup :=
  h.nodup_iff.mpr List.nodup_range

/-- The number of an instance is below that of all made. -/
lemma serial_lt {x : Tagged α} (hx : x ∈ l.instances) : x.serial < l.made :=
  List.mem_range.mp (h.subset (List.mem_map_of_mem hx))

/-- **What has been made is in use, parked or discarded.** -/
lemma made_eq : l.made = l.desk.live.length + l.desk.pool.idle + l.discarded.length := by
  have hlength := h.length_eq
  simp only [instances, List.length_map, List.length_append, List.length_range] at hlength
  exact hlength.symm

/-- An instance that is given back is none of the others in use and none of those parked. -/
lemma ne_serial {slot : Nat} {x : Tagged α} (hx : l.desk.item? slot = some x) :
    (∀ y ∈ (l.desk.held.set slot none).reduceOption, y.serial ≠ x.serial) ∧
      ∀ y ∈ l.parked ++ l.discarded, y.serial ≠ x.serial := by
  have hnodup := h.nodup
  have hperm : l.instances.Perm (x :: ((l.desk.held.set slot none).reduceOption ++
      (l.parked ++ l.discarded))) := by
    rw [instances, List.append_assoc]
    exact (Desk.live_perm hx).append_right _
  rw [(hperm.map Tagged.serial).nodup_iff, List.map_cons, List.nodup_cons] at hnodup
  have hne : ∀ y ∈ (l.desk.held.set slot none).reduceOption ++ (l.parked ++ l.discarded),
      y.serial ≠ x.serial :=
    fun y hy heq => hnodup.1 (List.mem_map.mpr ⟨y, hy, heq⟩)
  exact ⟨fun y hy => hne y (List.mem_append_left _ hy),
    fun y hy => hne y (List.mem_append_right _ hy)⟩

end Balanced

/-- A new ledger is balanced. -/
lemma balanced_new (capacity : Nat) : (new capacity : Ledger α).Balanced :=
  List.Perm.refl _

variable [Recyclable α] {l l' : Ledger α}

/-- **A change keeps a ledger balanced.**

**Proof sketch.** Only an instance that is made adds a number, the next one. An instance that is
handed out again, comes back or is discarded goes from one place to another with its number. -/
lemma Change.balanced (h : Change l l') (hl : l.Balanced) : l'.Balanced := by
  unfold Balanced at hl ⊢
  cases h with
  | made hparked =>
    show (((l.desk.held ++ [some (Tagged.blank l.made).recycle]).reduceOption ++ l.parked ++
      l.discarded).map _).Perm _
    rw [reduceOption_handed, List.range_succ]
    have hmoved : (l.desk.live ++ [(Tagged.blank l.made).recycle] ++ l.parked ++ l.discarded).Perm
        ((Tagged.blank l.made).recycle :: l.instances) := by
      simp only [instances, List.append_assoc, List.singleton_append]
      exact List.perm_middle
    exact ((hmoved.map Tagged.serial).trans (hl.cons l.made)).trans
      (List.perm_append_singleton _ _).symm
  | @reissued x rest pool hparked _ hpool =>
    show (((l.desk.held ++ [some x.recycle]).reduceOption ++ pool.parked ++ _).map _).Perm _
    rw [reduceOption_handed, hpool]
    have hserials : l.instances.map Tagged.serial =
        (l.desk.live ++ [x.recycle] ++ rest ++ l.discarded).map Tagged.serial := by
      simp [instances, hparked, Tagged.recycle]
    rw [hserials] at hl
    exact hl
  | @returned slot x pool hx _ _ hpool =>
    refine List.Perm.trans ?_ hl
    show (((l.desk.held.set slot none).reduceOption ++ pool.parked ++ l.discarded).map _).Perm _
    rw [hpool]
    have hmoved := ((Desk.live_perm hx).append_right (l.parked ++ l.discarded)).map Tagged.serial
    simp only [instances, List.append_assoc, List.map_append, List.map_cons, List.cons_append]
      at hmoved ⊢
    exact List.perm_middle.trans hmoved.symm
  | @discarded slot x hx _ =>
    refine List.Perm.trans ?_ hl
    show (((l.desk.held.set slot none).reduceOption ++ l.parked ++
      x.recycle :: l.discarded).map _).Perm _
    have hmoved := ((Desk.live_perm hx).append_right (l.parked ++ l.discarded)).map Tagged.serial
    simp only [instances, List.append_assoc, List.map_append, List.map_cons, List.cons_append]
      at hmoved ⊢
    rw [← List.append_assoc]
    refine List.perm_middle.trans ?_
    rw [List.append_assoc]
    exact hmoved.symm
  | written slot f =>
    have hlive : (l.write slot f).desk.live.map Tagged.serial = l.desk.live.map Tagged.serial :=
      Desk.live_write_map l.desk slot fun _ => rfl
    have hserials : (l.write slot f).instances.map Tagged.serial =
        l.instances.map Tagged.serial := by
      simp only [instances, List.map_append, hlive]
      rfl
    rw [hserials]
    exact hl
  | idle => exact hl

/-! ## Moves -/

/-- What the pool hands out is held under the next number. -/
lemma acquire_eq {x : Tagged α} {pool : Pool (Tagged α)}
    (h : @Pool.acquire _ l.source l.desk.pool = (x, pool)) :
    l.acquire = ⟨⟨pool, l.desk.held ++ [some x]⟩,
      if x.serial = l.made then l.made + 1 else l.made, l.discarded,
      .issued x.serial :: l.entries⟩ := by
  simp only [acquire, Desk.acquire, h]

/-- **With nothing parked a new instance is handed out.** -/
lemma acquire_of_nil (h : l.parked = []) :
    l.acquire = ⟨⟨l.desk.pool, l.desk.held ++ [some (Tagged.blank l.made).recycle]⟩, l.made + 1,
      l.discarded, .issued l.made :: l.entries⟩ := by
  let x : Tagged α := (Tagged.blank l.made).recycle
  have hnew : x.serial = l.made := rfl
  rw [acquire_eq (x := x) (@Pool.acquire_of_nil _ _ l.source h), if_pos hnew]
  rfl

/-- **The first of the parked instances is handed out.** -/
lemma acquire_of_cons (hl : l.Balanced) {x : Tagged α} {rest : List (Tagged α)}
    (h : l.parked = x :: rest) :
    ∃ pool : Pool (Tagged α), pool.capacity = l.desk.pool.capacity ∧ pool.parked = rest ∧
      l.acquire = ⟨⟨pool, l.desk.held ++ [some x.recycle]⟩, l.made, l.discarded,
        .issued x.serial :: l.entries⟩ := by
  obtain ⟨hfirst, hrest⟩ := @Pool.acquire_of_cons _ _ l.source _ _ h
  have hx : x ∈ l.instances := by simp [instances, h]
  have hlt : x.serial < l.made := hl.serial_lt hx
  have hold : ¬ x.recycle.serial = l.made := Nat.ne_of_lt hlt
  refine ⟨_, @Pool.capacity_acquire _ l.source l.desk.pool, hrest, ?_⟩
  rw [acquire_eq (x := x.recycle) (Prod.ext hfirst rfl), if_neg hold]
  rfl

/-- Nothing happens when there is no such instance in use. -/
lemma drop_of_none {slot : Nat} (hx : l.desk.item? slot = none) : l.drop slot = l := by
  simp [drop, Desk.drop, hx]

section

variable {slot : Nat} {x : Tagged α} (hx : l.desk.item? slot = some x)

include hx

/-- **An instance that comes back is parked in front of the others** if there is room. -/
lemma drop_of_room (hroom : l.desk.pool.idle < l.desk.pool.capacity) :
    ∃ pool : Pool (Tagged α), pool.capacity = l.desk.pool.capacity ∧
      pool.parked = x.recycle :: l.parked ∧
      l.drop slot = ⟨⟨pool, l.desk.held.set slot none⟩, l.made, l.discarded,
        .returned x.serial x.item :: l.entries⟩ := by
  let _ := l.source
  have hparked := Pool.parked_release hroom x
  have hmem : x.serial ∈ (l.desk.pool.release x).parked.map Tagged.serial := by
    rw [hparked]
    exact List.mem_cons_self
  have hdesk : l.desk.drop slot = ⟨l.desk.pool.release x, l.desk.held.set slot none⟩ := by
    simp [Desk.drop, hx]
  refine ⟨_, Pool.capacity_release l.desk.pool x, hparked, ?_⟩
  simp only [drop, hx, hdesk, if_pos hmem]

/-- **An instance that comes back to a full pool is discarded.** -/
lemma drop_of_full (hl : l.Balanced) (hfull : ¬ l.desk.pool.idle < l.desk.pool.capacity) :
    l.drop slot = ⟨⟨l.desk.pool, l.desk.held.set slot none⟩, l.made, x.recycle :: l.discarded,
      .returned x.serial x.item :: l.entries⟩ := by
  let _ := l.source
  have hmem : x.serial ∉ l.parked.map Tagged.serial := by
    intro hmem
    obtain ⟨y, hy, heq⟩ := List.mem_map.mp hmem
    exact (hl.ne_serial hx).2 y (List.mem_append_left _ hy) heq
  have hdesk : l.desk.drop slot = ⟨l.desk.pool, l.desk.held.set slot none⟩ := by
    simp [Desk.drop, hx, Pool.release_of_full hfull]
  simp only [drop, hx, hdesk, if_neg hmem]

end

/-- **A move of a balanced ledger is one of the changes.** -/
theorem change_move (hl : l.Balanced) (m : Desk.Move α) : Change l (l.move m) := by
  cases m with
  | acquire =>
    show Change l l.acquire
    cases hparked : l.desk.pool.parked with
    | nil =>
      rw [acquire_of_nil hparked]
      exact .made hparked
    | cons x rest =>
      obtain ⟨pool, hcapacity, hrest, hacquire⟩ := acquire_of_cons hl hparked
      rw [hacquire]
      exact .reissued hparked hcapacity hrest
  | drop slot =>
    show Change l (l.drop slot)
    cases hx : l.desk.item? slot with
    | none =>
      rw [drop_of_none hx]
      exact .idle
    | some x =>
      by_cases hroom : l.desk.pool.idle < l.desk.pool.capacity
      · obtain ⟨pool, hcapacity, hparked, hdrop⟩ := drop_of_room hx hroom
        rw [hdrop]
        exact .returned hx hroom hcapacity hparked
      · rw [drop_of_full hx hl hroom]
        exact .discarded hx hroom
  | write slot f => exact .written slot f

/-- A property of balanced ledgers that changes keep is kept by moves. -/
lemma play_induction {P : Ledger α → Prop}
    (hchange : ∀ {l l'}, l.Balanced → P l → Change l l' → P l') (hl : l.Balanced) (hP : P l)
    (moves : List (Desk.Move α)) :
    (l.play moves).Balanced ∧ P (l.play moves) := by
  induction moves generalizing l with
  | nil => exact ⟨hl, hP⟩
  | cons m moves ih =>
    have hmove := change_move hl m
    exact ih (hmove.balanced hl) (hchange hl hP hmove)

/-- **Every ledger that is kept from the start is balanced.** -/
theorem balanced_play (capacity : Nat) (moves : List (Desk.Move α)) :
    ((new capacity : Ledger α).play moves).Balanced :=
  (play_induction (P := fun _ => True) (fun _ _ _ => trivial) (balanced_new capacity) trivial
    moves).1

/-- A change leaves the capacity. -/
lemma Change.capacity_eq (h : Change l l') :
    l'.desk.pool.capacity = l.desk.pool.capacity := by
  cases h with
  | reissued _ hcapacity _ => exact hcapacity
  | returned _ _ hcapacity _ => exact hcapacity
  | made | discarded | written | idle => rfl

/-- A pool keeps its capacity. -/
lemma capacity_play (capacity : Nat) (moves : List (Desk.Move α)) :
    ((new capacity : Ledger α).play moves).desk.pool.capacity = capacity :=
  (play_induction (P := fun l => l.desk.pool.capacity = capacity)
    (fun _ hl hchange => hchange.capacity_eq.trans hl) (balanced_new capacity) rfl moves).2

end Ledger

end Formula
