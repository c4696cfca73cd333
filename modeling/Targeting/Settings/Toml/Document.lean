import Targeting.Settings.Toml.Value

/-!
# Documents of TOML

A document is read into its statements first, the headers of tables and the entries; then the
statements build the settings.

## Main definitions

* `Targeting.Toml.Statement` — a statement; `Targeting.Toml.readStatements?` — those of a text.
* `Targeting.Toml.build?` — the table that statements build.
* `Targeting.Toml.read?` — the settings of a text.
-/

set_option autoImplicit false

namespace Targeting.Toml

/-! ## Statements -/

/-- A statement: the header of a table or of one more table in a list, or an entry of the table
whose header came last. -/
inductive Statement where
  | header (path : List String)
  | item (path : List String)
  | entry (path : List String) (value : Setting)
deriving Inhabited

/-- Reads the statement at the start of a text. -/
def readStatement? (text : List Char) : Option (Statement × List Char) :=
  match text with
  | '[' :: '[' :: rest => do
    let (path, rest) ← readKey? rest
    match rest with
    | ']' :: ']' :: rest => return (.item path, rest)
    | _ => none
  | '[' :: rest => do
    let (path, rest) ← readKey? rest
    match rest with
    | ']' :: rest => return (.header path, rest)
    | _ => none
  | _ => do
    let (path, rest) ← readKey? text
    match rest with
    | '=' :: rest =>
      let (value, rest) ← readValue? (dropBlank rest)
      return (.entry path value, rest)
    | _ => none

/-- Reads the statements of a text, each on a line of its own. The fuel bounds the number of
lines. -/
def readLines? : Nat → List Char → Option (List Statement)
  | 0, _ => none
  | fuel + 1, text =>
    match endLine? text with
    | some [] => some []
    | some rest => readLines? fuel rest
    | none => do
      let (statement, rest) ← readStatement? (dropBlank text)
      let statements ← readLines? fuel (← endLine? rest)
      return statement :: statements

/-- The statements of a text, which may open with the mark of its byte order. -/
def readStatements? (text : String) : Option (List Statement) :=
  readLines? (text.length + 1) (dropMark text.toList)

/-! ## Tables -/

/-- The entries that statements build; `current` is the path of the header that came last. -/
def build? : List String → Body → List Statement → Option Body
  | _, entries, [] => some entries
  | _, entries, .header path :: rest => do
    build? path (← changeAt? Node.open? path entries) rest
  | _, entries, .item path :: rest => do
    build? path (← changeAt? Node.append? path entries) rest
  | current, entries, .entry path value :: rest => do
    let entries ←
      if current.isEmpty then define? value path entries
      else changeAt? (Node.define? value path) current entries
    build? current entries rest

/-- The settings of a text, if it is TOML. -/
def read? (text : String) : Option (List (String × Setting)) := do
  return toSettings (← build? [] [] (← readStatements? text))

end Targeting.Toml
