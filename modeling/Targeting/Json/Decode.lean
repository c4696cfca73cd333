import Targeting.Json.Reader
import Targeting.Sorted.Dict

/-!
# Typed reading of JSON

Readers of texts, numbers, lists, maps and records out of a document, in the order of the document,
so that the first flaw met is the one reported. A record is read from an object, whose unknown
fields are skipped, or from an array of its fields in their order.

## Main definitions

* `Targeting.Json.Decoder` — a reader of one type.
* `Targeting.Json.text`, `truth`, `whole`, `optional`, `list`, `dict`, `oneOf` — for plain data.
* `Targeting.Json.Field`, `Targeting.Json.record` — for records.
* `Targeting.Json.Decoder.ofValue`, `Targeting.Json.Decoder.ofText` — reading a value, or a text.
-/

set_option autoImplicit false

namespace Targeting.Json

/-- A reader of one type: the data, or the first flaw of the document. -/
abbrev Decoder (α : Type) := Document → Except Flaw α

/-! ## Plain data -/

/-- Reads a string. -/
def text : Decoder String
  | .string s => .ok s
  | document => .error document.mismatch

/-- Reads a truth value. -/
def truth : Decoder Bool
  | .bool b => .ok b
  | document => .error document.mismatch

/-- Reads a whole number between two bounds; a double is none. -/
def whole (least greatest : Int) : Decoder Int
  | .number (.int n) => if least ≤ n ∧ n ≤ greatest then .ok n else .error .shape
  | document => .error document.mismatch

/-- Reads a natural number below a power of two. -/
def natural (bits : Nat) (document : Document) : Except Flaw Nat :=
  (whole 0 (Nat.pow 2 bits - 1 : Nat) document).map Int.toNat

/-- Reads a whole number of 64 bits with a sign. -/
def int64 (document : Document) : Except Flaw Int64 :=
  (whole (-9223372036854775808) 9223372036854775807 document).map Int64.ofInt

/-- Reads null as none. -/
def optional {α : Type} (decode : Decoder α) : Decoder (Option α)
  | .null => .ok none
  | document => (decode document).map some

/-- Reads an array, item by item. -/
def list {α : Type} (decode : Decoder α) : Decoder (List α)
  | .array items ending => do
    let values ← items.mapM decode
    ending.close
    return values
  | document => .error document.mismatch

/-- Reads the field of an object, whose name must be one that can be held. -/
def entry {α : Type} (decode : Decoder α) : Option String × Document → Except Flaw (String × α)
  | (none, _) => .error .malformed
  | (some name, value) => (decode value).map fun value => (name, value)

/-- Reads an object as a map; of several fields with one name the last counts. -/
def dict {α : Type} (decode : Decoder α) : Decoder (Dict α)
  | .object fields ending => do
    let entries ← fields.mapM (entry decode)
    ending.close
    return Dict.ofList entries
  | document => .error document.mismatch

/-- Reads one of several names, alone or as the only field of an object, with null for its value. -/
def oneOf {α : Type} (named : String → Option α) : Decoder α
  | .string name =>
    match named name with
    | some value => .ok value
    | none => .error .shape
  | .object [(some name, .null)] .closed =>
    match named name with
    | some value => .ok value
    | none => .error .shape
  | document => .error document.mismatch

/-! ## Records -/

/-- A field of a record of type `α`: its name, whether it may be absent, and how it is put into the
record. -/
structure Field (α : Type) where
  name : String
  required : Bool
  store : Document → α → Except Flaw α

/-- Puts the fields of an object into a record, in the order of the object. A known field that comes
twice is a flaw, an unknown one is skipped. `seen` has the known names so far. -/
def storeNamed {α : Type} (fields : List (Field α)) :
    List String → α → List (Option String × Document) → Except Flaw (List String × α)
  | seen, record, [] => .ok (seen, record)
  | _, _, (none, _) :: _ => .error .malformed
  | seen, record, (some name, value) :: rest =>
    match fields.find? (·.name = name) with
    | none => do value.skip; storeNamed fields seen record rest
    | some field =>
      if name ∈ seen then .error .shape
      else do
        let record ← field.store value record
        storeNamed fields (name :: seen) record rest

/-- Puts the items of an array into a record as its fields, in their order. Fields that the array
does not reach must be ones that may be absent, and an item beyond the last field is a flaw. -/
def storeInOrder {α : Type} (ending : Ending) :
    List (Field α) → α → List Document → Except Flaw α
  | [], record, [] => do ending.close; return record
  | [], _, _ :: _ => .error .malformed
  | fields, record, [] => do
    ending.close
    if fields.any (·.required) then .error .shape else return record
  | field :: fields, record, item :: rest => do
    let record ← field.store item record
    storeInOrder ending fields record rest

/-- Reads a record, starting from the one that absent fields leave unchanged. -/
def record {α : Type} (fields : List (Field α)) (initial : α) : Decoder α
  | .object members ending => do
    let (seen, value) ← storeNamed fields [] initial members
    ending.close
    if fields.any fun field => field.required && field.name ∉ seen then .error .shape
    else return value
  | .array items ending => storeInOrder ending fields initial items
  | document => .error document.mismatch

/-! ## Sources -/

/-- Reads a value. Whatever is wrong with a value is its shape. -/
def Decoder.ofValue {α : Type} (decode : Decoder α) (value : Json) : Except Flaw α :=
  (decode (Document.ofJson value)).mapError fun _ => .shape

/-- Reads a text, which nothing but blanks may follow. -/
def Decoder.ofText {α : Type} (decode : Decoder α) (source : String) : Except Flaw α := do
  let (document, followed) := Document.ofText source
  let value ← decode document
  if followed then .error .malformed else return value

end Targeting.Json
