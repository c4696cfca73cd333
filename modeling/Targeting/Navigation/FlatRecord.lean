import Targeting.Json.Printer
import Targeting.Sorted.Dict
import Targeting.Value.Basic

/-!
# Flat records

A nested record becomes a flat one: each value that is no object stands at the path of the keys that
lead to it, joined by points.

## Main definitions

* `Targeting.joinPath` — a path with one more key.
* `Targeting.leafValue` — the value of a leaf.
* `Targeting.flatRecord` — the flat record.
-/

set_option autoImplicit false

namespace Targeting

/-- A path with one more key; the empty path has no point after it. -/
def joinPath (path key : String) : String := if path.isEmpty then key else path ++ "." ++ key

/-- The text of a value inside a record: strings as they are, null empty, all else as JSON. -/
def plainText : Json → String
  | .string s => s
  | .null => ""
  | value => value.compact

/-- The value of a leaf: a list becomes the set of the texts of its items. -/
def leafValue : Json → Value
  | .array items => .set (.ofList (items.map plainText))
  | .bool b => .truth b
  | value => .text (plainText value)

mutual

/-- Adds the leaves of a value at a path to a flat record; a later leaf replaces an earlier one with
the same path. -/
def flatRecord (path : String) (fields : Dict Value) : Json → Dict Value
  | .object members => flatMembers path fields members
  | value => fields.insert path (leafValue value)

/-- Adds the leaves of the members of an object, in their order. -/
def flatMembers (path : String) (fields : Dict Value) : List (String × Json) → Dict Value
  | [] => fields
  | (key, value) :: rest =>
    flatMembers path (flatRecord (joinPath path key) fields value) rest

end

end Targeting
