import Formula.Json.Value
import Formula.Number.Layout

set_option relaxedAutoImplicit false
set_option autoImplicit false

/-!
# Writing JSON texts

The compact text of a document: no white space, members in their order, strings with the short
escapes where there is one.

## Main definitions

* `Formula.Json.render` — the compact text of a document.
-/

namespace Formula.Json

/-- A control character as a numbered escape. -/
def numberedEscape (c : Char) : String :=
  let digits := Nat.toDigits 16 c.toNat
  "\\u" ++ String.ofList (List.replicate (4 - digits.length) '0' ++ digits)

/-- A character of a string. -/
def renderChar (c : Char) : String :=
  match c with
  | '"' => "\\\""
  | '\\' => "\\\\"
  | '\x08' => "\\b"
  | '\x0c' => "\\f"
  | '\n' => "\\n"
  | '\r' => "\\r"
  | '\t' => "\\t"
  | _ => if c.toNat < 0x20 then numberedEscape c else c.toString

/-- A string between quotes. -/
def renderString (s : String) : String :=
  "\"" ++ String.join (s.toList.map renderChar) ++ "\""

/-- A number. A double that is no number of JSON is written as null. -/
def Number.render : Number → String
  | whole n => toString n
  | real x => if x.isFinite then Formula.Number.document.text x else "null"

/-- Texts with commas between them. -/
def commas (texts : List String) : String :=
  ",".intercalate texts

mutual

/-- **The compact text of a document.** -/
def render : Json → String
  | null => "null"
  | bool b => if b then "true" else "false"
  | number n => n.render
  | string s => renderString s
  | array items => "[" ++ commas (renderItems items) ++ "]"
  | object members => "\x7b" ++ commas (renderMembers members) ++ "\x7d"

/-- The texts of the items of an array. -/
def renderItems : List Json → List String
  | [] => []
  | v :: rest => render v :: renderItems rest

/-- The texts of the members of an object. -/
def renderMembers : List (String × Json) → List String
  | [] => []
  | (k, v) :: rest => (renderString k ++ ":" ++ render v) :: renderMembers rest

end

end Formula.Json
