import Formula.Tick

set_option relaxedAutoImplicit false
set_option autoImplicit false

/-!
# Named constants

The constants that a formula refers to by a name behind `$`: numbers of mathematics, lengths of
time in seconds, the infinities, and what the clock shows.

## Main definitions

* `Formula.constants` — the table of names and values.
* `Formula.constantNames` — the names that are listed.
* `Formula.constant?` — the value of a name.

## Main results

* `Formula.constantNames_eq` — the names that are listed are those of the table.
* `Formula.constant?_isSome_iff` — a name has a value exactly when it is listed.
-/

namespace Formula

/-- The ratio of a circle's circumference to its diameter. -/
def pi : Float := 3.141592653589793

/-- **The table of constants**; each value may be read from the clock's sample. -/
def constants : List (String × (Tick → Float)) :=
  [ ("pi", fun _ => pi),
    ("2pi", fun _ => 6.283185307179586),
    ("pi_2", fun _ => 1.5707963267948966),
    ("rad2deg", fun _ => 180.0 / pi),
    ("deg2rad", fun _ => pi / 180.0),
    ("secsinmin", fun _ => 60.0),
    ("secsinhour", fun _ => 3600.0),
    ("secsinday", fun _ => 86400.0),
    ("secsinweek", fun _ => 604800.0),
    ("secsinyear", fun _ => 31536000.0),
    ("infinity", fun _ => 1.0 / 0.0),
    ("inf", fun _ => 1.0 / 0.0),
    ("-infinity", fun _ => -(1.0 / 0.0)),
    ("-inf", fun _ => -(1.0 / 0.0)),
    ("time", Tick.time),
    ("unscaledtime", Tick.unscaledTime),
    ("fixedtime", Tick.fixedTime),
    ("deltatime", Tick.deltaTime),
    ("fixeddeltatime", Tick.fixedDeltaTime) ]

/-- **The names that are listed** for who asks for them, apart from the table. -/
def constantNames : List String :=
  ["pi", "2pi", "pi_2", "rad2deg", "deg2rad", "secsinmin", "secsinhour", "secsinday",
    "secsinweek", "secsinyear", "infinity", "inf", "-infinity", "-inf", "time", "unscaledtime",
    "fixedtime", "deltatime", "fixeddeltatime"]

/-- **The value of a name**, which is in lower case, at a tick. -/
def constant? (name : String) (tick : Tick) : Option Float :=
  (constants.find? fun entry => entry.1 == name).map fun entry => entry.2 tick

/-- The names that are listed are those of the table, in its order. -/
theorem constantNames_eq : constantNames = constants.map Prod.fst := rfl

/-- A name has a value exactly when it is listed. -/
theorem constant?_isSome_iff (name : String) (tick : Tick) :
    (constant? name tick).isSome = true ↔ name ∈ constantNames := by
  simp only [constant?, constantNames_eq, Option.isSome_map, List.find?_isSome, List.mem_map,
    beq_iff_eq]

end Formula
