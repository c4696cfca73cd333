import Targeting.Decimal.Binary64
import Targeting.Sorted.Dict

/-!
# JSON values

A JSON value with whole numbers kept apart from doubles, so that `1` and `1.0` stay different.
The fields of an object stand in increasing order of their names (`Json.ofFields` puts them so).

## Main definitions

* `Targeting.Json` — the values; `Targeting.Json.Number` — the numbers.
* `Targeting.Json.ofFields` — an object from its fields in any order, the last of a name counting.
* `Targeting.Json.field?` — the value of a field of an object.
-/

set_option autoImplicit false

namespace Targeting

/-- A JSON number: a whole number of 64 bits, signed or not, or else a double. -/
inductive Json.Number where
  | int (value : Int)
  | real (value : Binary64)
deriving DecidableEq, Inhabited

/-- A JSON value. -/
inductive Json where
  | null
  | bool (value : Bool)
  | number (value : Json.Number)
  | string (value : String)
  | array (items : List Json)
  | object (fields : List (String × Json))
deriving Inhabited

namespace Json

/-- The object with the given fields; of several fields with one name the last counts. -/
def ofFields (fields : List (String × Json)) : Json := .object (Dict.ofList fields).entries

/-- A whole number as a value. -/
def ofInt (n : Int) : Json := .number (.int n)

/-- A list of texts as a value. -/
def ofTexts (texts : List String) : Json := .array (texts.map .string)

/-- A text, or null for none. -/
def ofText? : Option String → Json
  | none => .null
  | some text => .string text

/-- The entries of a map as an object. -/
def ofDict {α : Type} (encode : α → Json) (dict : Dict α) : Json :=
  .object (dict.entries.map fun (key, value) => (key, encode value))

/-- The value of a field, when the value is an object that has it. -/
def field? (value : Json) (name : String) : Option Json :=
  match value with
  | .object fields => Dict.find? name fields
  | _ => none

/-- Whether the value is an object. -/
def isObject : Json → Bool
  | .object _ => true
  | _ => false

end Json

end Targeting
