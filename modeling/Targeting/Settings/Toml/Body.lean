import Targeting.Settings.Tree

/-!
# Tables of TOML under construction

The statements of a text build its tables one after the other, and nothing may be defined twice.
What may still be added to a table depends on how it came to be.

## Main definitions

* `Targeting.Toml.Node`, `Targeting.Toml.Body` — a part, and a table of parts under construction.
* `Targeting.Toml.define?` — a table with one more entry.
* `Targeting.Toml.changeAt?` — a table with a change at the path of a header.
* `Targeting.Toml.toSetting`, `Targeting.Toml.toSettings` — finished parts as settings.
-/

set_option autoImplicit false

namespace Targeting.Toml

/-- How a table came to be: on the way to a table with a header, by its own header, or on the way to
an entry with a dotted key. -/
inductive Origin where
  | implied
  | header
  | dotted
deriving DecidableEq, Repr, Inhabited

/-- A value, a table under construction, or a list of tables of which the last is under
construction. -/
inductive Node where
  | value (value : Setting)
  | table (origin : Origin) (entries : List (String × Node))
  | tables (finished : List Setting) (last : List (String × Node))
deriving Inhabited

/-- The entries of a table that is under construction. -/
abbrev Body := List (String × Node)

mutual

/-- A finished part as a setting. -/
def toSetting : Node → Setting
  | .value value => value
  | .table _ entries => .table (toSettings entries)
  | .tables finished last => .list (finished ++ [.table (toSettings last)])

/-- Finished entries as settings. -/
def toSettings : List (String × Node) → List (String × Setting)
  | [] => []
  | (key, node) :: rest => (key, toSetting node) :: toSettings rest

end

/-! ## Entries -/

/-- The entries with one more at a dotted key, which must be new. The tables on the way must not
have a header, and they will not get one. -/
def define? (value : Setting) : List String → Body → Option Body
  | [], _ => none
  | [key], entries =>
    match Dict.find? key entries with
    | none => some (Dict.place key (.value value) entries)
    | some _ => none
  | key :: path, entries =>
    match Dict.find? key entries with
    | none => do return Dict.place key (.table .dotted (← define? value path [])) entries
    | some (.table .header _) => none
    | some (.table _ inner) => do
      return Dict.place key (.table .dotted (← define? value path inner)) entries
    | some _ => none

/-- The part with one more entry in its table, of several in the last. -/
def Node.define? (value : Setting) (path : List String) : Option Node → Option Node
  | some (.table origin inner) => do return .table origin (← Toml.define? value path inner)
  | some (.tables finished last) => do return .tables finished (← Toml.define? value path last)
  | _ => none

/-! ## Headers -/

/-- A table with a header of its own: a new one, or one that was only on the way to others. -/
def Node.open? : Option Node → Option Node
  | none => some (.table .header [])
  | some (.table .implied inner) => some (.table .header inner)
  | some _ => none

/-- A list of tables with one more. -/
def Node.append? : Option Node → Option Node
  | none => some (.tables [] [])
  | some (.tables finished last) => some (.tables (finished ++ [.table (toSettings last)]) [])
  | some _ => none

/-- The entries with the part at the path of a header changed. Tables that are missing on the way
are made, and of a list of tables the last one is on the way. -/
def changeAt? (change? : Option Node → Option Node) : List String → Body → Option Body
  | [], _ => none
  | [key], entries => do return Dict.place key (← change? (Dict.find? key entries)) entries
  | key :: path, entries =>
    match Dict.find? key entries with
    | none => do return Dict.place key (.table .implied (← changeAt? change? path [])) entries
    | some (.table origin inner) => do
      return Dict.place key (.table origin (← changeAt? change? path inner)) entries
    | some (.tables finished last) => do
      return Dict.place key (.tables finished (← changeAt? change? path last)) entries
    | some (.value _) => none

end Targeting.Toml
