import Formula.Proofs.Json.Ordered
import Formula.Proofs.Likeness.LetterCase
import Formula.Proofs.Literals

set_option relaxedAutoImplicit false
set_option autoImplicit false

/-!
# Members of documents

What is found under a name. In an object it is the value of that very key, or else of the smallest
of the keys that differ from the name in the case of letters only; smaller is what comes first in
the order of the UTF-8 bytes. In an array it is the item whose index the name writes.

A look-up goes through the members in the order in which they stand, so it finds the smallest key
because they stand in ascending order. They do so in every object that a path reaches in a document
that was read. The order of texts is that of their characters, and it is the order of their bytes as
well.

## Main definitions

* `Formula.Text.bytes` — the UTF-8 bytes of a text.
* `Formula.Json.IsSmallestMatch` — the key that is found when the name itself is none.
* `Formula.Json.WritesIndex` — the names of the items of an array.

## Main results

* `Formula.Text.bytes_lt_iff` — texts are in the order of their bytes.
* `Formula.Json.find?_eq_some_iff_smallest` — the first key with a property is the smallest one.
* `Formula.Json.index?_eq_some_iff` — the names that write an index.
* `Formula.Json.keys_ascending_of_read` — the objects in which a formula looks list their keys in
  ascending order.
* `Formula.Json.member_lookup` — what is found under a name.
-/

namespace Formula

/-! ## The order of bytes -/

namespace Text

/-- **The UTF-8 bytes of a text.** -/
def bytes (s : String) : List UInt8 :=
  s.toUTF8.data.toList

/-- The bytes of a text are those of its characters. -/
lemma bytes_eq (s : String) : bytes s = s.toList.flatMap String.utf8EncodeChar := by
  have hencode : s.toUTF8 = s.toList.utf8Encode := by simp
  rw [bytes, hencode, List.utf8Encode, List.toList_data_toByteArray]

/-- **A smaller character has smaller bytes**, whatever follows them.

**Proof sketch.** One case for each number of bytes that the two characters have. A character with
fewer bytes has a smaller first byte. Of two with equally many, the leading bits are in the first
byte in which they differ. -/
lemma utf8EncodeChar_append_lt {c d : Char} (h : c < d) (u v : List UInt8) :
    String.utf8EncodeChar c ++ u < String.utf8EncodeChar d ++ v := by
  have hlt : c.val.toNat < d.val.toNat := h
  have hd : d.val.toNat < 0x110000 := d.valid.elim (by simp; omega) (by simp)
  generalize hm : c.val.toNat = m at hlt
  generalize hn : d.val.toNat = n at hlt hd
  -- the bits of the first bytes, in the steps of six in which the later bytes take them
  have hbits (k : Nat) : k / 4096 = k / 64 / 64 ∧ k / 262144 = k / 64 / 64 / 64 := by omega
  simp only [String.utf8EncodeChar, hm, hn, (hbits _).1, (hbits _).2]
  split_ifs <;>
    simp only [List.cons_append, List.nil_append, List.cons_lt_cons_iff, UInt8.lt_iff_toNat_lt,
      ← UInt8.toNat_inj, UInt8.toNat_ofNat'] <;>
    omega

/-- Characters in order have bytes in order. -/
lemma flatMap_utf8EncodeChar_lt {a b : List Char} (h : a < b) :
    a.flatMap String.utf8EncodeChar < b.flatMap String.utf8EncodeChar := by
  induction a generalizing b with
  | nil =>
    cases b with
    | nil => exact absurd h (List.lt_irrefl [])
    | cons d b =>
      obtain ⟨x, xs, hd⟩ := List.exists_cons_of_ne_nil (String.utf8EncodeChar_ne_nil (c := d))
      rw [List.flatMap_nil, List.flatMap_cons, hd, List.cons_append]
      exact List.nil_lt_cons x _
  | cons c a ih =>
    cases b with
    | nil => exact absurd h (List.not_lt_nil _)
    | cons d b =>
      rw [List.flatMap_cons, List.flatMap_cons]
      rcases List.cons_lt_cons_iff.mp h with hcd | ⟨rfl, htail⟩
      · exact utf8EncodeChar_append_lt hcd _ _
      · exact List.append_left_lt (ih htail)

/-- **Texts are in the order of their bytes.** -/
theorem bytes_lt_iff {a b : String} : bytes a < bytes b ↔ a < b := by
  have hbytes {a b : String} (h : a < b) : bytes a < bytes b := by
    rw [bytes_eq, bytes_eq]
    exact flatMap_utf8EncodeChar_lt (String.lt_iff_toList_lt.mp h)
  refine ⟨fun h => ?_, hbytes⟩
  rcases lt_trichotomy a b with hlt | rfl | hgt
  · exact hlt
  · exact absurd h (List.lt_irrefl _)
  · exact absurd h (List.lt_asymm (hbytes hgt))

/-- A text that is not greater has bytes that are not greater. -/
lemma bytes_le_iff {a b : String} : bytes a ≤ bytes b ↔ a ≤ b := by
  rw [← List.not_lt, bytes_lt_iff, String.not_lt]

end Text

namespace Json

/-! ## Members of objects -/

/-- **The first member with a property of its key is the one with the smallest such key**, where the
keys are in ascending order. -/
lemma find?_eq_some_iff_smallest {members : List (String × Json)}
    (h : (members.map Prod.fst).Pairwise (· < ·)) {p : String → Bool} {m : String × Json} :
    members.find? (fun n => p n.1) = some m ↔
      m ∈ members ∧ p m.1 = true ∧ ∀ k ∈ members.map Prod.fst, p k = true → m.1 ≤ k := by
  induction members with
  | nil => simp
  | cons n rest ih =>
    obtain ⟨hfirst, hrest⟩ := List.pairwise_cons.mp h
    rw [List.find?_cons]
    cases hn : p n.1 with
    | true =>
      simp only [Option.some.injEq]
      constructor
      · rintro rfl
        refine ⟨List.mem_cons_self, hn, fun k hk _ => ?_⟩
        rcases List.mem_cons.mp hk with rfl | hk
        · exact le_refl _
        · exact le_of_lt (hfirst k hk)
      · rintro ⟨hm, -, hleast⟩
        rcases List.mem_cons.mp hm with rfl | hm
        · rfl
        · have hle : m.1 ≤ n.1 := hleast n.1 List.mem_cons_self hn
          have hlt : n.1 < m.1 := hfirst m.1 (List.mem_map_of_mem hm)
          exact absurd hlt (not_lt.mpr hle)
    | false =>
      rw [ih hrest]
      refine ⟨fun ⟨hm, hpm, hleast⟩ => ⟨List.mem_cons_of_mem _ hm, hpm, fun k hk hpk => ?_⟩,
        fun ⟨hm, hpm, hleast⟩ => ⟨?_, hpm, fun k hk => hleast k (List.mem_cons_of_mem _ hk)⟩⟩
      · rcases List.mem_cons.mp hk with rfl | hk
        · rw [hn] at hpk
          cases hpk
        · exact hleast k hk hpk
      · rcases List.mem_cons.mp hm with rfl | hm
        · rw [hn] at hpm
          cases hpm
        · exact hm

/-- **The key that is found when the name itself is none**: of the keys that are the same as the
name up to the case of ASCII letters the one with the smallest bytes. -/
structure IsSmallestMatch (keys : List String) (name key : String) : Prop where
  /-- It is a key. -/
  mem : key ∈ keys
  /-- It is the same as the name up to case. -/
  same : Text.sameLetters key name = true
  /-- The others that are so have no smaller bytes. -/
  least : ∀ k ∈ keys, Text.sameLetters k name = true → Text.bytes key ≤ Text.bytes k

section

variable {members : List (String × Json)} (h : (members.map Prod.fst).Pairwise (· < ·))
  {name : String} {x : Json}

include h

/-- The value of a key is found under it. -/
lemma find?_eq_some_iff : find? name members = some x ↔ (name, x) ∈ members := by
  rw [Json.find?, Option.map_eq_some_iff]
  constructor
  · rintro ⟨⟨key, y⟩, hfind, rfl⟩
    obtain ⟨hmem, hkey, -⟩ :=
      (find?_eq_some_iff_smallest (p := fun k => k == name) h).mp hfind
    rw [← show key = name from eq_of_beq hkey]
    exact hmem
  · intro hmem
    refine ⟨(name, x), (find?_eq_some_iff_smallest (p := fun k => k == name) h).mpr
      ⟨hmem, beq_self_eq_true name, fun k _ hk => ?_⟩, rfl⟩
    rw [show k = name from eq_of_beq hk]

/-- **Up to case the value of the smallest key is found.** -/
lemma findFolded?_eq_some_iff : findFolded? name members = some x ↔
    ∃ key, (key, x) ∈ members ∧ IsSmallestMatch (members.map Prod.fst) name key := by
  have hiff (m : String × Json) := find?_eq_some_iff_smallest (m := m)
    (p := fun k => Text.sameLetters k name) h
  rw [findFolded?, Option.map_eq_some_iff]
  constructor
  · rintro ⟨⟨key, y⟩, hfind, rfl⟩
    obtain ⟨hmem, hsame, hleast⟩ := (hiff _).mp hfind
    exact ⟨key, hmem, List.mem_map_of_mem hmem, hsame,
      fun k hk hk' => Text.bytes_le_iff.mpr (hleast k hk hk')⟩
  · rintro ⟨key, hmem, hkey⟩
    exact ⟨(key, x), (hiff _).mpr ⟨hmem, hkey.same,
      fun k hk hk' => Text.bytes_le_iff.mp (hkey.least k hk hk')⟩, rfl⟩

/-- **What is found in an object**: the value under the name, or that under the smallest key that is
the same up to case. -/
lemma object_member?_eq_some_iff : (object members).member? name = some x ↔
    (name, x) ∈ members ∨ name ∉ members.map Prod.fst ∧
      ∃ key, (key, x) ∈ members ∧ IsSmallestMatch (members.map Prod.fst) name key := by
  have hnone : find? name members = none ↔ name ∉ members.map Prod.fst := by
    rw [Option.eq_none_iff_forall_ne_some, List.mem_map]
    constructor
    · rintro hnone ⟨⟨_, y⟩, hmem, rfl⟩
      exact hnone y ((find?_eq_some_iff h).mpr hmem)
    · intro hnone y hy
      exact hnone ⟨(name, y), (find?_eq_some_iff h).mp hy, rfl⟩
  rw [Json.member?, Option.or_eq_some_iff, find?_eq_some_iff h, hnone, findFolded?_eq_some_iff h]

end

/-- **Nothing is found in an object** exactly when no key is the same as the name up to case. -/
lemma object_member?_eq_none_iff {members : List (String × Json)} {name : String} :
    (object members).member? name = none ↔
      ∀ key ∈ members.map Prod.fst, Text.sameLetters key name = false := by
  rw [Json.member?, Option.or_eq_none_iff, Json.find?, findFolded?, Option.map_eq_none_iff,
    Option.map_eq_none_iff, List.find?_eq_none, List.find?_eq_none, List.forall_mem_map]
  simp only [Bool.not_eq_true]
  refine ⟨fun hnone => hnone.2, fun hnone => ⟨fun m hm => ?_, hnone⟩⟩
  rw [beq_eq_false_iff_ne]
  intro heq
  have hdiffers := hnone m hm
  rw [heq, Text.sameLetters_self] at hdiffers
  cases hdiffers

/-! ## Items of arrays -/

/-- **A name that writes an index**: digits with that decimal value, behind a plus sign or not. -/
def WritesIndex (name : String) (i : Nat) : Prop :=
  ∃ digits : List Char, digits ≠ [] ∧ (∀ c ∈ digits, c.isDigit = true) ∧
    (name.toList = digits ∨ name.toList = '+' :: digits) ∧ Literal.decimal digits = i

/-- Digits write their decimal value as an index, if it is below the bound. -/
lemma indexOfDigits?_eq_some_iff {digits : List Char} {i : Nat} :
    indexOfDigits? digits = some i ↔ digits ≠ [] ∧ (∀ c ∈ digits, c.isDigit = true) ∧
      Literal.decimal digits = i ∧ i < 2 ^ 64 := by
  have hvalue : Number.natOfDigits digits = Literal.decimal digits :=
    (Literal.decimal_eq_foldl digits).symm
  unfold indexOfDigits?
  rw [hvalue]
  split_ifs with hrefused hlt
  · simp only [List.isEmpty_iff, List.all_eq_true] at hrefused
    simp only [false_iff]
    tauto
  · simp only [List.isEmpty_iff, List.all_eq_true, not_or, not_not] at hrefused
    have hlt' : Literal.decimal digits < 2 ^ 64 := hlt
    simp only [Option.some.injEq]
    exact ⟨fun h => ⟨hrefused.1, hrefused.2, h, h ▸ hlt'⟩, fun h => h.2.2.1⟩
  · have hlt' : ¬ Literal.decimal digits < 2 ^ 64 := hlt
    simp only [false_iff]
    rintro ⟨-, -, rfl, hbelow⟩
    exact hlt' hbelow

/-- **The names that write an index.** -/
lemma index?_eq_some_iff {name : String} {i : Nat} :
    index? name = some i ↔ WritesIndex name i ∧ i < 2 ^ 64 := by
  rw [index?_apply, indexOfDigits?_eq_some_iff]
  constructor
  · rintro ⟨hne, hdigits, hvalue, hlt⟩
    refine ⟨⟨_, hne, hdigits, ?_, hvalue⟩, hlt⟩
    cases hname : name.toList with
    | nil => exact .inl rfl
    | cons c cs =>
      by_cases hplus : c = '+'
      · subst hplus
        exact .inr rfl
      · exact .inl (unsigned_cons hplus cs).symm
  · rintro ⟨⟨digits, hne, hdigits, hname, hvalue⟩, hlt⟩
    obtain rfl : digits = unsigned name.toList := by
      rcases hname with hname | hname
      · obtain ⟨c, cs, rfl⟩ := List.exists_cons_of_ne_nil hne
        rw [hname, unsigned_cons]
        rintro rfl
        exact absurd (hdigits '+' List.mem_cons_self) (by decide)
      · rw [hname]
        rfl
    exact ⟨hne, hdigits, hvalue, hlt⟩

/-! ## What a path reaches -/

section

variable {v x : Json} (h : v.Ascending) {name : String}

include h

/-- A member of a document in order is in order. -/
lemma Ascending.member? (hx : v.member? name = some x) : x.Ascending := by
  cases v with
  | object members =>
    obtain ⟨hvalues, hkeys⟩ := h
    rcases (object_member?_eq_some_iff hkeys).mp hx with hmem | ⟨-, key, hmem, -⟩ <;>
      exact ascendingMembers_iff.mp hvalues _ hmem
  | array items =>
    obtain ⟨i, -, hi⟩ := Option.bind_eq_some_iff.mp hx
    exact ascendingItems_iff.mp h x (List.mem_of_getElem? hi)
  | _ => cases hx

/-- The value under a key of a document in order is in order. -/
lemma Ascending.field? (hx : v.field? name = some x) : x.Ascending := by
  cases v with
  | object members =>
    exact ascendingMembers_iff.mp h.1 _ ((find?_eq_some_iff h.2).mp hx)
  | _ => cases hx

/-- A component of a document in order is in order. -/
lemma Ascending.component? (hx : v.component? name = some x) : x.Ascending := by
  rcases Option.or_eq_some_iff.mp hx with hinner | ⟨-, hx⟩
  · obtain ⟨components, hcomponents, hx⟩ := Option.bind_eq_some_iff.mp hinner
    exact (h.field? hcomponents).field? hx
  · exact h.field? hx

/-- **What a path reaches in a document in order** is in order. -/
lemma Ascending.of_path {names : List String} (hpath : names.foldlM Json.member? v = some x) :
    x.Ascending := by
  induction names generalizing v with
  | nil =>
    obtain rfl := Option.some.inj hpath
    exact h
  | cons name names ih =>
    obtain ⟨w, hw, hpath⟩ := Option.bind_eq_some_iff.mp hpath
    exact ih (h.member? hw) hpath

end

/-- **The objects in which a formula looks list their keys in ascending order**: those that a path
reaches in a context that was read from a text, or in a component of it. -/
theorem keys_ascending_of_read {text : String} {context start : Json}
    (hread : read text = .ok context)
    (hstart : start = context ∨ ∃ typeName, context.component? typeName = some start)
    {names : List String} {members : List (String × Json)}
    (hpath : names.foldlM Json.member? start = some (object members)) :
    (members.map Prod.fst).Pairwise (· < ·) := by
  have hcontext : context.Ascending := ascending_of_read hread
  have hbegin : start.Ascending := by
    rcases hstart with rfl | ⟨typeName, hcomponent⟩
    · exact hcontext
    · exact hcontext.component? hcomponent
  exact (hbegin.of_path hpath).2

/-! ## Look-ups -/

/-- **What is found under a name.** In an object, whose keys are in ascending order:

* It is the value of that very key if there is one, and otherwise the value of the key with the
  smallest bytes among those that are the same as the name up to the case of ASCII letters.
* Nothing is found exactly when no key is the same up to case.
* Where no two keys are the same up to case, names that are so find the same.

In an array it is the item whose index the name writes, which is below `2 ^ 64`. In other documents
nothing is found.

**Proof sketch.** The members are looked through twice, for the exact key and up to case. What is
found first has the smallest key, since the keys are in ascending order. -/
theorem member_lookup (name : String) :
    (∀ members : List (String × Json), (members.map Prod.fst).Pairwise (· < ·) →
      (∀ x, (object members).member? name = some x ↔
        (name, x) ∈ members ∨ name ∉ members.map Prod.fst ∧
          ∃ key, (key, x) ∈ members ∧ IsSmallestMatch (members.map Prod.fst) name key) ∧
      ((object members).member? name = none ↔
        ∀ key ∈ members.map Prod.fst, Text.sameLetters key name = false) ∧
      ((members.map Prod.fst).Pairwise (fun k l => Text.sameLetters k l = false) →
        ∀ other, Text.sameLetters name other = true →
          (object members).member? name = (object members).member? other)) ∧
    (∀ (items : List Json) (x : Json), (array items).member? name = some x ↔
      ∃ i, WritesIndex name i ∧ i < 2 ^ 64 ∧ items[i]? = some x) ∧
    ∀ v : Json, (∀ members, v ≠ object members) → (∀ items, v ≠ array items) →
      v.member? name = none := by
  refine ⟨fun members h => ⟨fun x => object_member?_eq_some_iff h, object_member?_eq_none_iff,
    fun hdistinct other hsame => ?_⟩, fun items x => ?_, fun v hobject harray => ?_⟩
  · have hnodup : (members.map fun m => Text.lower m.1.toList).Nodup := by
      refine List.pairwise_map.mpr ((List.pairwise_map.mp hdistinct).imp fun hdiffers heq => ?_)
      rw [Text.sameLetters, heq, beq_self_eq_true] at hdiffers
      cases hdiffers
    rw [Json.member?, Json.member?, find_or_findFolded hnodup, find_or_findFolded hnodup,
      findFolded?_eq (eq_of_beq hsame)]
  · rw [Json.member?, Option.bind_eq_some_iff]
    simp only [index?_eq_some_iff, and_assoc]
  · cases v with
    | object members => exact absurd rfl (hobject members)
    | array items => exact absurd rfl (harray items)
    | _ => rfl

/-- On an object with two keys that are the same up to case, neither of them the name, and on one in
which no two keys are. -/
theorem member_lookup_smallest :
    let members : List (String × Json) := [("HP", .bool true), ("Hp", .bool false), ("mp", .null)]
    let distinct : List (String × Json) := [("Hp", .bool false), ("mp", .null)]
    (members.map Prod.fst).Pairwise (· < ·) ∧ (distinct.map Prod.fst).Pairwise (· < ·) ∧
      IsSmallestMatch (members.map Prod.fst) "hP" "HP" ∧
      (object members).member? "hP" = some (.bool true) ∧
      (distinct.map Prod.fst).Pairwise (fun k l => Text.sameLetters k l = false) ∧
      (object distinct).member? "hP" = (object distinct).member? "HP" := by
  intro members distinct
  have hmembers : (members.map Prod.fst).Pairwise (· < ·) := by decide
  have hdistinct : (distinct.map Prod.fst).Pairwise (· < ·) := by decide
  have hsmallest : IsSmallestMatch (members.map Prod.fst) "hP" "HP" :=
    ⟨by decide, by decide, fun k hk _ => Text.bytes_le_iff.mpr
      ((by decide : ∀ k ∈ members.map Prod.fst, "HP" ≤ k) k hk)⟩
  have hfolded : (distinct.map Prod.fst).Pairwise (fun k l => Text.sameLetters k l = false) := by
    decide
  refine ⟨hmembers, hdistinct, hsmallest, ?_, hfolded, ?_⟩
  · have hmem : ("HP", .bool true) ∈ members := List.mem_cons_self
    exact (((member_lookup "hP").1 members hmembers).1 _).mpr
      (.inr ⟨by decide, "HP", hmem, hsmallest⟩)
  · exact ((member_lookup "hP").1 distinct hdistinct).2.2 hfolded "HP" (by decide)

end Json

end Formula
