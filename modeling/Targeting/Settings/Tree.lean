import Targeting.Decimal.Extended
import Targeting.Settings.Engine
import Targeting.Sorted.Dict

/-!
# Trees of settings

A setting is a single value, a table of settings or a list of them. Layers of settings are laid over
each other: a table covers what was there entry by entry, any other value covers all of it.

## Main definitions

* `Targeting.Setting` — the settings.
* `Targeting.Setting.merge`, `Targeting.Setting.mergeEntries` — one setting over another.
* `Targeting.Step` — a step from a setting into one of its parts.
* `Targeting.Setting.update` — a setting with a value laid over the part at a path.
* `Targeting.Setting.text?`, `truth?`, `natural?`, `policy?`, `fields?` — a setting as a value of
  one kind.

## Main results

* `Targeting.Setting.find?_update_key` — a change at a key leaves the other keys alone.
-/

set_option autoImplicit false

namespace Targeting

/-- A setting: nothing, a single value, a table with its entries in increasing order of the keys, or
a list. -/
inductive Setting where
  | absent
  | text (value : String)
  | truth (value : Bool)
  | int (value : Int)
  | real (value : Extended)
  | table (entries : List (String × Setting))
  | list (items : List Setting)
deriving Inhabited

namespace Setting

/-! ## Layers -/

/-- The entries of a setting that is a table. -/
def entries : Setting → List (String × Setting)
  | table entries => entries
  | _ => []

/-- The items of a setting that is a list. -/
def items : Setting → List Setting
  | list items => items
  | _ => []

mutual

/-- A setting over the one that was there. -/
def merge (below : Setting) : Setting → Setting
  | table entries => table (mergeEntries below.entries entries)
  | value => value

/-- Entries over those of the table that was there. -/
def mergeEntries (below : List (String × Setting)) :
    List (String × Setting) → List (String × Setting)
  | [] => below
  | (key, value) :: rest =>
    mergeEntries (Dict.place key (merge ((Dict.find? key below).getD absent) value) below) rest

end

end Setting

/-- A step into a part of a setting: to an entry of a table, or to an item of a list. Places below
zero count from the end of the list. -/
inductive Step where
  | key (name : String)
  | item (place : Int)
deriving DecidableEq, Repr, Inhabited

namespace Setting

/-- A list with an item changed. A list that does not reach to the place grows there, at its end or,
for a place below zero, in front. -/
def changeItem (change : Setting → Setting) (place : Int) (items : List Setting) : List Setting :=
  if 0 ≤ place then
    (items ++ List.replicate (place.toNat + 1 - items.length) absent).modify place.toNat change
  else
    let back := (-place).toNat
    (List.replicate (back - items.length) absent ++ items).modify (items.length - back) change

/-- A setting with a value laid over the part at a path. What stands on the way and is of another
shape gives way to a table or list. -/
def update (value : Setting) : List Step → Setting → Setting
  | [], below => merge below value
  | .key name :: path, below =>
    table (Dict.place name (update value path ((Dict.find? name below.entries).getD absent))
      below.entries)
  | .item place :: path, below => list (changeItem (update value path) place below.items)

/-- A change at a key has its effect there and leaves the entries at other keys as they were. -/
theorem find?_update_key {value below : Setting} {name other : String} {path : List Step} :
    Dict.find? other (update value (.key name :: path) below).entries =
      if other = name then
        some (update value path ((Dict.find? name below.entries).getD absent))
      else Dict.find? other below.entries := Dict.find?_place

/-! ## Kinds -/

/-- The setting as a text: single values are written out. -/
def text? : Setting → Option String
  | text s => some s
  | truth b => some (truthText b)
  | int n => some (toString n)
  | real x => some x.text
  | _ => none

/-- The truth value that a word stands for, in any case. -/
def switch? (word : String) : Option Bool :=
  let word := lowerCase word
  if word ∈ ["true", "on", "yes"] then some true
  else if word ∈ ["false", "off", "no"] then some false
  else none

/-- The setting as a truth value: numbers are true unless zero. -/
def truth? : Setting → Option Bool
  | truth b => some b
  | int n => some (n != 0)
  | real x => some x.isNonzero
  | text s => if s = "1" then some true else if s = "0" then some false else switch? s
  | _ => none

/-- A natural number of so many bits that a text names, with or without a plus sign. -/
def naturalText? (bits : Nat) (text : String) : Option Nat :=
  let digits := match text.toList with
    | '+' :: rest => rest
    | chars => chars
  (Targeting.natural? digits).filter (fitsWord bits)

/-- The setting as a natural number of so many bits: true is one, and other numbers are rounded. -/
def natural? (bits : Nat) : Setting → Option Nat
  | int n => if 0 ≤ n ∧ fitsWord bits n.toNat then some n.toNat else none
  | truth b => some b.toNat
  | real x => some (x.toNatural bits)
  | text s =>
    match switch? s with
    | some b => some b.toNat
    | none => naturalText? bits s
  | _ => none

/-- The setting as a field policy: its name, alone or as the only key of a table. -/
def policy? : Setting → Option FieldPolicy
  | text s => FieldPolicy.ofName? s
  | table [(key, _)] => FieldPolicy.ofName? key
  | _ => none

/-- The setting as a table. A list stands for the table that has its items at the keys in turn. -/
def fields? (keys : List String) : Setting → Option (List (String × Setting))
  | table entries => some entries
  | list items => some (keys.zip items)
  | _ => none

end Setting

end Targeting
