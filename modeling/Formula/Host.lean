set_option relaxedAutoImplicit false
set_option autoImplicit false

/-!
# Hosts

A formula refers to objects and draws random numbers through its host. What an object is, how its
members are found and where random numbers come from is the host's affair; a host may keep state
between calls, so an evaluation makes its calls in a definite order.

## Main definitions

* `Formula.ObjectModel` — how objects are read.
* `Formula.ObjectModel.follow` — the object at the end of a path.
* `Formula.RandomSource` — where random numbers come from.
* `Formula.HostCall`, `Formula.Recorded` — the calls made so far.
* `Formula.ObjectModel.recorded`, `Formula.RandomSource.recorded` — hosts that keep a record.
* `Formula.Part` — a part of a host's state.
* `Formula.ObjectModel.within`, `Formula.RandomSource.within` — hosts that keep their state in a
  part of a larger one.
-/

namespace Formula

/-- **How objects are read.** -/
structure ObjectModel (ω σ : Type) where
  /-- The number that an object stands for. -/
  number : ω → StateM σ Float
  /-- The member of an object with a name, if there is one. -/
  member : ω → String → StateM σ (Option ω)
  /-- The part of a context that is registered under a type name, if there is one. -/
  component : ω → String → StateM σ (Option ω)

/-- **Follows names one after the other**, each from what the last one gave, up to the first that is
absent. -/
def ObjectModel.follow {ω σ : Type} (model : ObjectModel ω σ) :
    Option ω → List String → StateM σ (Option ω)
  | none, _ => pure none
  | some target, [] => pure (some target)
  | some target, name :: names => do
    model.follow (← model.member target name) names

/-- **Where random numbers come from.** -/
structure RandomSource (σ : Type) where
  /-- A number between two bounds, both included. -/
  uniform : Float → Float → StateM σ Float
  /-- An integer between two bounds, the upper one excluded; the lower one if there is none. -/
  integer : Int64 → Int64 → StateM σ Int64

/-- **A call made on a host**, with what is told of its outcome. -/
inductive HostCall where
  | number (result : Float)
  | member (name : String) (found : Bool)
  | component (typeName : String) (found : Bool)
  | uniform (min max : Float)
  | integer (min max : Int64)

/-- A call on the source of random numbers. -/
def HostCall.isDraw : HostCall → Bool
  | uniform _ _ => true
  | integer _ _ => true
  | _ => false

/-- **A host's state with a record** of the calls made, in their order. -/
structure Recorded (σ : Type) where
  /-- The calls made so far. -/
  calls : List HostCall
  /-- The host's own state. -/
  own : σ

namespace Recorded

variable {σ α : Type}

/-- Makes a call on the host and records what `entry` tells of it. -/
def make (entry : α → HostCall) (call : StateM σ α) : StateM (Recorded σ) α := fun s =>
  let (a, own) := call s.own
  (a, ⟨s.calls ++ [entry a], own⟩)

end Recorded

/-- **The same objects, every call recorded.** -/
def ObjectModel.recorded {ω σ : Type} (model : ObjectModel ω σ) : ObjectModel ω (Recorded σ) where
  number object := Recorded.make .number (model.number object)
  member object name := Recorded.make (fun r => .member name r.isSome) (model.member object name)
  component context name :=
    Recorded.make (fun r => .component name r.isSome) (model.component context name)

/-- **The same random numbers, every draw recorded.** -/
def RandomSource.recorded {σ : Type} (source : RandomSource σ) : RandomSource (Recorded σ) where
  uniform min max := Recorded.make (fun _ => .uniform min max) (source.uniform min max)
  integer min max := Recorded.make (fun _ => .integer min max) (source.integer min max)

/-- **A part of a host's state**, which can be read and replaced. -/
structure Part (σ τ : Type) where
  /-- Reads the part. -/
  get : σ → τ
  /-- Replaces the part. -/
  set : τ → σ → σ

namespace Part

variable {σ τ α : Type}

/-- The host's own state, as a part of its state with a record. -/
def own : Part (Recorded σ) σ where
  get s := s.own
  set t s := { s with own := t }

/-- The part of a host's state that keeps nothing. -/
def nothing : Part σ Unit where
  get _ := ()
  set _ s := s

/-- A part of a part. -/
def comp {υ : Type} (outer : Part σ τ) (inner : Part τ υ) : Part σ υ where
  get s := inner.get (outer.get s)
  set u s := outer.set (inner.set u (outer.get s)) s

/-- Runs a computation on a part of the state. -/
def run (part : Part σ τ) (call : StateM τ α) : StateM σ α := fun s =>
  let (a, t) := call (part.get s)
  (a, part.set t s)

end Part

/-- The model that keeps its state in a part of a larger one. -/
def ObjectModel.within {ω σ τ : Type} (model : ObjectModel ω τ) (part : Part σ τ) :
    ObjectModel ω σ where
  number object := part.run (model.number object)
  member object name := part.run (model.member object name)
  component context name := part.run (model.component context name)

/-- The source that keeps its state in a part of a larger one. -/
def RandomSource.within {σ τ : Type} (source : RandomSource τ) (part : Part σ τ) :
    RandomSource σ where
  uniform min max := part.run (source.uniform min max)
  integer min max := part.run (source.integer min max)

end Formula
