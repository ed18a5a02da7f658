import Formula.Proofs.Ledger

set_option relaxedAutoImplicit false
set_option autoImplicit false

/-!
# When instances are recycled

An instance is recycled once whenever it is handed out and once whenever it comes back, and at no
other time. So it is handed out without anything that recycling wipes, whatever its holders have
written, and with everything else as the last of them left it.

## Main definitions

* `Formula.Recyclable.Wipes`, `Formula.Recyclable.Keeps` — what recycling does to a part.
* `Formula.Ledger.usage` — how often an instance was handed out and came back, and how it was left.
* `Formula.Ledger.Counted` — how often instances have been recycled, told from their usage.

## Main results

* `Formula.Ledger.counted_play` — a ledger that is kept from the start is counted.
* `Formula.Ledger.recycled_twice` — when instances are recycled, and what of them is carried over.
-/

namespace Formula

variable {α β : Type}

/-! ## What recycling does to a part -/

/-- **Recycling wipes a part**: it is clean behind it, whatever it was before. -/
def Recyclable.Wipes [Recyclable α] (part : α → β) (clean : β) : Prop :=
  ∀ x : α, part (recycle x) = clean

/-- **Recycling keeps a part** as it is. -/
def Recyclable.Keeps [Recyclable α] (part : α → β) : Prop :=
  ∀ x : α, part (recycle x) = part x

/-! ## What has become of an instance -/

/-- **What has become of an instance**, as the entries of a ledger tell it. -/
structure Usage (α : Type) where
  /-- How often it was handed out. -/
  issued : Nat
  /-- How often it came back. -/
  returned : Nat
  /-- How its last holder left it, if it ever came back. -/
  left? : Option α

namespace Entry

/-- The number of the instance that an entry is about. -/
def serial : Entry α → Nat
  | issued serial => serial
  | returned serial _ => serial

/-- Adds an entry to what is told of an instance. -/
def note : Entry α → Usage α → Usage α
  | issued _, u => { u with issued := u.issued + 1 }
  | returned _ left, u => { u with returned := u.returned + 1, left? := some left }

/-- **What entries tell of an instance**, the last entry coming first. -/
def usage (serial : Nat) : List (Entry α) → Usage α
  | [] => ⟨0, 0, none⟩
  | e :: entries => if e.serial = serial then e.note (usage serial entries)
    else usage serial entries

/-- An entry tells of its instance. -/
lemma usage_cons_self (e : Entry α) (entries : List (Entry α)) :
    usage e.serial (e :: entries) = e.note (usage e.serial entries) :=
  if_pos rfl

/-- An entry tells of no other instance. -/
lemma usage_cons_of_ne {e : Entry α} {serial : Nat} (h : serial ≠ e.serial)
    (entries : List (Entry α)) : usage serial (e :: entries) = usage serial entries :=
  if_neg h.symm

end Entry

namespace Ledger

/-- What has become of an instance. -/
def usage (l : Ledger α) (serial : Nat) : Usage α := Entry.usage serial l.entries

/-- The first of the parked instances is none of the others. -/
lemma Balanced.ne_serial_of_parked {l : Ledger α} (hl : l.Balanced) {x : Tagged α}
    {rest : List (Tagged α)} (h : l.parked = x :: rest) :
    (∀ y ∈ l.desk.live, y.serial ≠ x.serial) ∧
      ∀ y ∈ rest ++ l.discarded, y.serial ≠ x.serial := by
  have hnodup := hl.nodup
  have hperm : l.instances.Perm (x :: (l.desk.live ++ (rest ++ l.discarded))) := by
    rw [instances, h, List.append_assoc]
    exact List.perm_middle
  rw [(hperm.map Tagged.serial).nodup_iff, List.map_cons, List.nodup_cons] at hnodup
  have hne : ∀ y ∈ l.desk.live ++ (rest ++ l.discarded), y.serial ≠ x.serial :=
    fun y hy heq => hnodup.1 (List.mem_map.mpr ⟨y, hy, heq⟩)
  exact ⟨fun y hy => hne y (List.mem_append_left _ hy),
    fun y hy => hne y (List.mem_append_right _ hy)⟩

/-- Behind a write each instance in use is one from before it, with its tag. -/
lemma exists_of_mem_live_write {l : Ledger α} {slot : Nat} {f : α → α} {y : Tagged α}
    (hy : y ∈ (l.write slot f).desk.live) :
    ∃ x ∈ l.desk.live, x.serial = y.serial ∧ x.recycled = y.recycled := by
  have htags : (l.write slot f).desk.live.map (fun x => (x.serial, x.recycled)) =
      l.desk.live.map (fun x => (x.serial, x.recycled)) :=
    Desk.live_write_map l.desk slot fun _ => rfl
  have hmem : (y.serial, y.recycled) ∈ l.desk.live.map (fun x => (x.serial, x.recycled)) :=
    htags ▸ List.mem_map_of_mem (f := fun x : Tagged α => (x.serial, x.recycled)) hy
  obtain ⟨x, hx, heq⟩ := List.mem_map.mp hmem
  exact ⟨x, hx, congrArg Prod.fst heq, congrArg Prod.snd heq⟩

variable [Recyclable α]

/-- **An instance in use, as entries tell of it**: it has come back each time but the last, and has
been recycled whenever it was handed out and whenever it came back. -/
structure HeldAs (entries : List (Entry α)) (x : Tagged α) : Prop where
  returned : (Entry.usage x.serial entries).issued = (Entry.usage x.serial entries).returned + 1
  recycled : x.recycled =
    (Entry.usage x.serial entries).issued + (Entry.usage x.serial entries).returned

/-- **An instance out of use, as entries tell of it**: it has come back each time, has been recycled
as often, and is what recycling makes of what its last holder left. -/
structure LeftAs (entries : List (Entry α)) (x : Tagged α) : Prop where
  returned : (Entry.usage x.serial entries).issued = (Entry.usage x.serial entries).returned
  recycled : x.recycled =
    (Entry.usage x.serial entries).issued + (Entry.usage x.serial entries).returned
  item : ∃ left, (Entry.usage x.serial entries).left? = some left ∧
    x.item = Recyclable.recycle left

section

variable {entries : List (Entry α)} {x : Tagged α}

omit [Recyclable α] in
/-- An entry about another instance tells nothing of one in use. -/
lemma HeldAs.other (h : HeldAs entries x) {e : Entry α} (hne : x.serial ≠ e.serial) :
    HeldAs (e :: entries) x := by
  obtain ⟨hreturned, hrecycled⟩ := h
  rw [← Entry.usage_cons_of_ne hne] at hreturned hrecycled
  exact ⟨hreturned, hrecycled⟩

/-- An entry about another instance tells nothing of one out of use. -/
lemma LeftAs.other (h : LeftAs entries x) {e : Entry α} (hne : x.serial ≠ e.serial) :
    LeftAs (e :: entries) x := by
  obtain ⟨hreturned, hrecycled, hitem⟩ := h
  rw [← Entry.usage_cons_of_ne hne] at hreturned hrecycled hitem
  exact ⟨hreturned, hrecycled, hitem⟩

/-- A new instance is in use when it is handed out. -/
lemma HeldAs.made {serial : Nat} (h : Entry.usage serial entries = ⟨0, 0, none⟩) :
    HeldAs (.issued serial :: entries) (Tagged.blank serial).recycle := by
  have husage : Entry.usage serial (.issued serial :: entries) = ⟨1, 0, none⟩ := by
    refine (Entry.usage_cons_self (.issued serial) entries).trans ?_
    exact congrArg (Entry.note (.issued serial)) h
  constructor
  · show (Entry.usage serial _).issued = (Entry.usage serial _).returned + 1
    exact husage.symm ▸ rfl
  · show 1 = (Entry.usage serial _).issued + (Entry.usage serial _).returned
    exact husage.symm ▸ rfl

/-- An instance is in use when it is handed out again. -/
lemma LeftAs.issued (h : LeftAs entries x) :
    HeldAs (.issued x.serial :: entries) x.recycle := by
  obtain ⟨hreturned, hrecycled, -⟩ := h
  have husage := Entry.usage_cons_self (.issued x.serial) entries
  constructor
  · show (Entry.usage x.serial _).issued = (Entry.usage x.serial _).returned + 1
    exact husage.symm ▸ congrArg (· + 1) hreturned
  · show x.recycled + 1 = (Entry.usage x.serial _).issued + (Entry.usage x.serial _).returned
    refine husage.symm ▸ ?_
    show x.recycled + 1 = _ + 1 + _
    rw [hrecycled, Nat.add_right_comm]
    rfl

/-- An instance is out of use when it comes back. -/
lemma HeldAs.returned_left (h : HeldAs entries x) :
    LeftAs (.returned x.serial x.item :: entries) x.recycle := by
  obtain ⟨hreturned, hrecycled⟩ := h
  have husage := Entry.usage_cons_self (.returned x.serial x.item) entries
  refine ⟨?_, ?_, x.item, ?_, rfl⟩
  · show (Entry.usage x.serial _).issued = (Entry.usage x.serial _).returned
    exact husage.symm ▸ hreturned
  · show x.recycled + 1 = (Entry.usage x.serial _).issued + (Entry.usage x.serial _).returned
    exact husage.symm ▸ congrArg (· + 1) hrecycled
  · show (Entry.usage x.serial _).left? = some x.item
    exact husage.symm ▸ rfl

end

/-- **How often instances have been recycled**, told from the entries. -/
structure Counted (l : Ledger α) : Prop where
  /-- Those in use. -/
  held : ∀ x ∈ l.desk.live, HeldAs l.entries x
  /-- Those parked or discarded. -/
  left : ∀ x ∈ l.parked ++ l.discarded, LeftAs l.entries x
  /-- Nothing is told of instances that have not been made. -/
  unmade : ∀ serial, l.made ≤ serial → l.usage serial = ⟨0, 0, none⟩

variable {l l' : Ledger α}

/-- Nothing is told of instances that have not been made, if the entry added is about one that
has. -/
lemma Counted.unmade_cons (h : l.Counted) {e : Entry α} (he : e.serial < l.made) {serial : Nat}
    (hserial : l.made ≤ serial) : Entry.usage serial (e :: l.entries) = ⟨0, 0, none⟩ :=
  (Entry.usage_cons_of_ne (Nat.ne_of_gt (Nat.lt_of_lt_of_le he hserial)) l.entries).trans
    (h.unmade serial hserial)

/-- **A change keeps instances counted.**

**Proof sketch.** A change adds an entry about one instance at most, which is recycled then and goes
to its new place. Of all others nothing new is told. -/
lemma Change.counted (h : Change l l') (hl : l.Balanced) (hcounted : l.Counted) : l'.Counted := by
  cases h with
  | made hparked =>
    have hold : ∀ y ∈ l.instances, y.serial ≠ l.made := fun y hy => Nat.ne_of_lt (hl.serial_lt hy)
    simp only [instances, List.append_assoc] at hold
    refine ⟨fun y hy => ?_, fun y hy => ?_, fun serial hserial => ?_⟩
    · change y ∈ (l.desk.held ++ [some _]).reduceOption at hy
      rw [reduceOption_handed] at hy
      rcases List.mem_append.mp hy with hy | hy
      · exact (hcounted.held y hy).other (hold y (List.mem_append_left _ hy))
      · obtain rfl := List.mem_singleton.mp hy
        exact .made (hcounted.unmade l.made (Nat.le_refl _))
    · exact (hcounted.left y hy).other (hold y (List.mem_append_right _ hy))
    · have hne : serial ≠ l.made := Nat.ne_of_gt hserial
      exact (Entry.usage_cons_of_ne (e := .issued l.made) hne l.entries).trans
        (hcounted.unmade serial (Nat.le_of_succ_le hserial))
  | @reissued x rest pool hparked _ hpool =>
    obtain ⟨hlive, hrest⟩ := hl.ne_serial_of_parked hparked
    have hx : x.serial < l.made := hl.serial_lt (by simp [instances, hparked])
    refine ⟨fun y hy => ?_, fun y hy => ?_, fun serial =>
      hcounted.unmade_cons (e := .issued x.serial) hx⟩
    · change y ∈ (l.desk.held ++ [some _]).reduceOption at hy
      rw [reduceOption_handed] at hy
      rcases List.mem_append.mp hy with hy | hy
      · exact (hcounted.held y hy).other (hlive y hy)
      · obtain rfl := List.mem_singleton.mp hy
        exact (hcounted.left x (by simp [hparked])).issued
    · change y ∈ pool.parked ++ l.discarded at hy
      rw [hpool] at hy
      have hy' : y ∈ l.parked ++ l.discarded := by
        rw [hparked]
        exact List.mem_cons_of_mem x hy
      exact (hcounted.left y hy').other (hrest y hy)
  | @returned slot x pool hslot _ _ hpool =>
    obtain ⟨hlive, hrest⟩ := hl.ne_serial hslot
    have hmem : x ∈ l.desk.live := Desk.mem_live hslot
    have hx : x.serial < l.made := hl.serial_lt (by simp [instances, hmem])
    refine ⟨fun y hy => ?_, fun y hy => ?_, fun serial =>
      hcounted.unmade_cons (e := .returned x.serial x.item) hx⟩
    · exact (hcounted.held y ((Desk.live_perm hslot).symm.subset (List.mem_cons_of_mem x hy))).other
        (hlive y hy)
    · change y ∈ pool.parked ++ l.discarded at hy
      rw [hpool] at hy
      rcases List.mem_cons.mp hy with rfl | hy
      · exact (hcounted.held x hmem).returned_left
      · exact (hcounted.left y hy).other (hrest y hy)
  | @discarded slot x hslot _ =>
    obtain ⟨hlive, hrest⟩ := hl.ne_serial hslot
    have hmem : x ∈ l.desk.live := Desk.mem_live hslot
    have hx : x.serial < l.made := hl.serial_lt (by simp [instances, hmem])
    refine ⟨fun y hy => ?_, fun y hy => ?_, fun serial =>
      hcounted.unmade_cons (e := .returned x.serial x.item) hx⟩
    · exact (hcounted.held y ((Desk.live_perm hslot).symm.subset (List.mem_cons_of_mem x hy))).other
        (hlive y hy)
    · rcases List.mem_cons.mp (List.perm_middle.subset hy) with rfl | hy
      · exact (hcounted.held x hmem).returned_left
      · exact (hcounted.left y hy).other (hrest y hy)
  | written slot f =>
    refine ⟨fun y hy => ?_, hcounted.left, hcounted.unmade⟩
    obtain ⟨x, hx, hserial, hrecycled⟩ := exists_of_mem_live_write hy
    obtain ⟨hreturned, hcount⟩ := hcounted.held x hx
    rw [hserial] at hreturned hcount
    exact ⟨hreturned, hrecycled ▸ hcount⟩
  | idle => exact hcounted

/-- **A ledger that is kept from the start is counted.** -/
theorem counted_play (capacity : Nat) (moves : List (Desk.Move α)) :
    ((new capacity : Ledger α).play moves).Counted := by
  refine (play_induction (P := Counted) (fun hl hcounted h => h.counted hl hcounted)
    (balanced_new capacity) ⟨?_, ?_, fun _ _ => rfl⟩ moves).2
  · exact fun x hx => absurd hx List.not_mem_nil
  · exact fun x hx => absurd hx List.not_mem_nil

/-! ## What is carried over -/

/-- **An instance that is ready for use**, with what has become of it before. -/
structure ReadyAfter (u : Usage α) (x : Tagged α) : Prop where
  /-- Whatever recycling wipes of it is clean. -/
  wiped : ∀ {β : Type} {part : α → β} {clean : β},
    Recyclable.Wipes part clean → part x.item = clean
  /-- Whatever recycling keeps of it is as its last holder left it, or as it was made if it had
  none. -/
  kept : ∀ {β : Type} {part : α → β},
    Recyclable.Keeps part → part x.item = part (u.left?.getD Recyclable.blank)

/-- A new instance is ready for use. -/
lemma ReadyAfter.made {u : Usage α} (h : u.left? = none) (serial : Nat) :
    ReadyAfter u (Tagged.blank serial).recycle where
  wiped hwipes := hwipes Recyclable.blank
  kept hkeeps := by
    rw [h]
    exact hkeeps Recyclable.blank

/-- A parked instance is ready for use. -/
lemma LeftAs.ready {entries : List (Entry α)} {x : Tagged α} (h : LeftAs entries x) :
    ReadyAfter (Entry.usage x.serial entries) x := by
  obtain ⟨left, hleft, hitem⟩ := h.item
  constructor
  · intro β part clean hwipes
    rw [hitem]
    exact hwipes left
  · intro β part hkeeps
    rw [hitem, hleft]
    exact hkeeps left

/-- Recycling leaves an instance ready for use. -/
lemma ReadyAfter.recycle {u : Usage α} {x : Tagged α} (h : ReadyAfter u x) :
    ReadyAfter u x.recycle where
  wiped hwipes := hwipes x.item
  kept hkeeps := (hkeeps x.item).trans (h.kept hkeeps)

/-- **Instances are recycled when they are handed out and when they come back**, once each time, for
every capacity and every sequence of moves: an instance in use that has been handed out so many
times has been recycled twice as often but for once, and a parked one twice as often. So what is
handed out next is ready for use, and what is parked is, with what recycling wipes wiped and all
else as the last holder left it. -/
theorem recycled_twice (capacity : Nat) (moves : List (Desk.Move α)) :
    let l := (new capacity : Ledger α).play moves
    l.desk.map Tagged.item = (Desk.new capacity).play moves ∧
      (∀ x ∈ l.instances,
        x.recycled = (l.usage x.serial).issued + (l.usage x.serial).returned) ∧
      (∀ slot x, l.desk.item? slot = some x → 1 ≤ (l.usage x.serial).issued ∧
        x.recycled = 2 * (l.usage x.serial).issued - 1) ∧
      (∀ x ∈ l.parked, x.recycled = 2 * (l.usage x.serial).issued ∧
        (l.usage x.serial).left?.isSome ∧ ReadyAfter (l.usage x.serial) x) ∧
      ∃ x : Tagged α, l.acquire.desk.held = l.desk.held ++ [some x] ∧
        ReadyAfter (l.usage x.serial) x := by
  intro l
  have hl : l.Balanced := balanced_play capacity moves
  have hcounted : l.Counted := counted_play capacity moves
  refine ⟨items_play (new capacity) moves, fun x hx => ?_, fun slot x hx => ?_, fun x hx => ?_, ?_⟩
  · rw [instances, List.append_assoc] at hx
    rcases List.mem_append.mp hx with hx | hx
    · exact (hcounted.held x hx).recycled
    · exact (hcounted.left x hx).recycled
  · obtain ⟨hreturned, hrecycled⟩ := hcounted.held x (Desk.mem_live hx)
    change (l.usage x.serial).issued = (l.usage x.serial).returned + 1 at hreturned
    change x.recycled = (l.usage x.serial).issued + (l.usage x.serial).returned at hrecycled
    omega
  · have hleft : LeftAs l.entries x := hcounted.left x (List.mem_append_left _ hx)
    obtain ⟨left, hitem, -⟩ := hleft.item
    refine ⟨?_, Option.isSome_of_eq_some hitem, hleft.ready⟩
    have hreturned : (l.usage x.serial).issued = (l.usage x.serial).returned := hleft.returned
    have hrecycled : x.recycled = (l.usage x.serial).issued + (l.usage x.serial).returned :=
      hleft.recycled
    omega
  · cases hparked : l.parked with
    | nil =>
      have hunmade : l.usage l.made = ⟨0, 0, none⟩ := hcounted.unmade l.made (Nat.le_refl _)
      rw [acquire_of_nil hparked]
      exact ⟨_, rfl, .made (congrArg Usage.left? hunmade) l.made⟩
    | cons x rest =>
      have hleft : LeftAs l.entries x := hcounted.left x (by simp [hparked])
      obtain ⟨pool, -, -, hacquire⟩ := acquire_of_cons hl hparked
      rw [hacquire]
      exact ⟨x.recycle, rfl, hleft.ready.recycle⟩

end Ledger

/-- **A sheet**, of which the notes are wiped and the heading is kept. -/
structure Sheet where
  heading : String
  notes : String
deriving DecidableEq

instance : Recyclable Sheet := ⟨⟨"", ""⟩, fun sheet => { sheet with notes := "" }⟩

/-- On a sheet that one holder has headed and noted on. -/
theorem Ledger.recycled_twice_sheet :
    let l := (new 1 : Ledger Sheet).play
      [.acquire, .write 0 fun _ => ⟨"expenses", "lunch"⟩, .drop 0]
    ∃ x ∈ l.parked, x.recycled = 2 ∧ x.item.notes = "" ∧ x.item.heading = "expenses" := by
  intro l
  obtain ⟨-, -, -, hparked, -⟩ := @recycled_twice Sheet _ 1
    [.acquire, .write 0 fun _ => ⟨"expenses", "lunch"⟩, .drop 0]
  obtain ⟨hrecycled, -, hready⟩ := hparked ⟨0, 2, "expenses", ""⟩ List.mem_cons_self
  have hwipes : Recyclable.Wipes Sheet.notes "" := fun _ => rfl
  have hkeeps : Recyclable.Keeps Sheet.heading := fun _ => rfl
  exact ⟨_, List.mem_cons_self, hrecycled, hready.wiped hwipes, hready.kept hkeeps⟩

end Formula
