set_option relaxedAutoImplicit false
set_option autoImplicit false

/-!
# JSON documents

The documents that formulas refer to. A number keeps whether it was written as an integer of at
most 64 bits or as a double, and the members of an object stand in ascending order of their keys.

## Main definitions

* `Formula.Json` — a document.
* `Formula.Json.ofMembers` — the object with given members, the last of equal keys winning.
* `Formula.Json.field?` — the value under a key.
* `Formula.Json.Ascending` — a document whose objects list their keys in ascending order.
-/

namespace Formula

/-- **A number of a document.** -/
inductive Json.Number where
  /-- An integer from `-2 ^ 63` to `2 ^ 64 - 1`. -/
  | whole (value : Int)
  /-- Any other number. -/
  | real (value : Float)

/-- **A document.** -/
inductive Json where
  | null
  | bool (value : Bool)
  | number (value : Json.Number)
  | string (value : String)
  | array (items : List Json)
  | object (members : List (String × Json))

namespace Json

/-- The double nearest to a number. -/
def Number.toFloat : Number → Float
  | whole n => Float.ofInt n
  | real x => x

/-- Puts a member where its key belongs, in place of a member with the same key. -/
def insertMember (key : String) (value : Json) : List (String × Json) → List (String × Json)
  | [] => [(key, value)]
  | (k, v) :: rest =>
    if key < k then (key, value) :: (k, v) :: rest
    else if key = k then (key, value) :: rest
    else (k, v) :: insertMember key value rest

/-- **The object with given members.** Of members with one key the last one counts. -/
def ofMembers (members : List (String × Json)) : Json :=
  object (members.foldl (fun sorted (k, v) => insertMember k v sorted) [])

/-- The value of the first member with a key. -/
def find? (key : String) (members : List (String × Json)) : Option Json :=
  (members.find? fun m => m.1 == key).map Prod.snd

/-- **The value under a key** of an object; other documents have none. -/
def field? (key : String) : Json → Option Json
  | object members => find? key members
  | _ => none

mutual

/-- **A document in order**: every object lists its keys in ascending order, each once. -/
def Ascending : Json → Prop
  | array items => AscendingItems items
  | object members => AscendingMembers members ∧ (members.map Prod.fst).Pairwise (· < ·)
  | _ => True

/-- All items of an array are in order. -/
def AscendingItems : List Json → Prop
  | [] => True
  | v :: rest => Ascending v ∧ AscendingItems rest

/-- All values of an object are in order. -/
def AscendingMembers : List (String × Json) → Prop
  | [] => True
  | (_, v) :: rest => Ascending v ∧ AscendingMembers rest

end

end Json

end Formula
