import Targeting.Json.Value

/-!
# JSON documents

A document is a JSON value as it stands in a text that may break off. What follows a break is not
there, and the break keeps its place, so that whoever reads the document in order meets the first
flaw of the text exactly where the text has it. Parts that nobody needs are skipped under weaker
rules than those for parts that are held: their numbers may have any size, their strings may have
lone surrogates, and they may nest to any depth.

## Main definitions

* `Targeting.Json.Flaw` — what is wrong with a document.
* `Targeting.Json.Document` — the documents; `Document.ofJson` — the document of a value.
* `Targeting.Json.Document.toJson` — the value of a document, or its first flaw.
* `Targeting.Json.Document.skip` — the first flaw of a document that nobody needs.
-/

set_option autoImplicit false

namespace Targeting.Json

/-- What is wrong with a document: the wrong shape for the reader, a text that is not JSON, or a
text that ends too early. -/
inductive Flaw where
  | shape
  | malformed
  | truncated
deriving DecidableEq, Inhabited

/-- How the items of an array or the fields of an object end: with the closing bracket, or with a
flaw, which may be another one for a part that is skipped. -/
inductive Ending where
  | closed
  | broken (held skipped : Flaw)
deriving DecidableEq, Inhabited

/-- The flaw at the end of an array or object that is held. -/
def Ending.close : Ending → Except Flaw Unit
  | .closed => .ok ()
  | .broken held _ => .error held

/-- The flaw at the end of an array or object that is skipped. -/
def Ending.skip : Ending → Except Flaw Unit
  | .closed => .ok ()
  | .broken _ skipped => .error skipped

/-- A JSON value as it stands in a text. -/
inductive Document where
  | null
  | bool (value : Bool)
  | number (value : Number)
  | string (value : String)
  | array (items : List Document) (ending : Ending)
  | object (fields : List (Option String × Document)) (ending : Ending)
  /-- The text breaks here; the flaw is another one where the part is skipped. -/
  | broken (held skipped : Flaw)
  /-- The text is sound but stands for nothing that can be held. -/
  | beyond (content : Document)
deriving Inhabited

namespace Document

/-- The flaw of a document that is not of the kind its reader needs. -/
def mismatch : Document → Flaw
  | .broken held _ => held
  | .beyond _ => .malformed
  | _ => .shape

/-! ## Values as documents -/

mutual

/-- A value as a document without flaws. -/
def ofJson : Json → Document
  | .null => .null
  | .bool b => .bool b
  | .number n => .number n
  | .string s => .string s
  | .array items => .array (ofItems items) .closed
  | .object fields => .object (ofFields fields) .closed

/-- The documents of a list of values. -/
def ofItems : List Json → List Document
  | [] => []
  | item :: rest => ofJson item :: ofItems rest

/-- The documents of a list of fields. -/
def ofFields : List (String × Json) → List (Option String × Document)
  | [] => []
  | (name, value) :: rest => (some name, ofJson value) :: ofFields rest

end

/-! ## Documents as values -/

mutual

/-- The value of a document, or its first flaw. -/
def toJson : Document → Except Flaw Json
  | .null => .ok .null
  | .bool b => .ok (.bool b)
  | .number n => .ok (.number n)
  | .string s => .ok (.string s)
  | .array items ending => do
    let values ← toItems items
    ending.close
    return .array values
  | .object fields ending => do
    let values ← toFields fields
    ending.close
    return Json.ofFields values
  | .broken held _ => .error held
  | .beyond _ => .error .malformed

/-- The values of a list of documents, or the first flaw. -/
def toItems : List Document → Except Flaw (List Json)
  | [] => .ok []
  | item :: rest => do return (← toJson item) :: (← toItems rest)

/-- The values of a list of fields, or the first flaw. -/
def toFields : List (Option String × Document) → Except Flaw (List (String × Json))
  | [] => .ok []
  | (none, _) :: _ => .error .malformed
  | (some name, value) :: rest => do return (name, ← toJson value) :: (← toFields rest)

end

/-! ## Skipping -/

mutual

/-- The first flaw of a document under the rules for parts that nobody needs. -/
def skip : Document → Except Flaw Unit
  | .array items ending => do skipItems items; ending.skip
  | .object fields ending => do skipFields fields; ending.skip
  | .broken _ skipped => .error skipped
  | .beyond content => skip content
  | _ => .ok ()

/-- The first flaw of a list of documents that nobody needs. -/
def skipItems : List Document → Except Flaw Unit
  | [] => .ok ()
  | item :: rest => do skip item; skipItems rest

/-- The first flaw of a list of fields that nobody needs. -/
def skipFields : List (Option String × Document) → Except Flaw Unit
  | [] => .ok ()
  | (_, value) :: rest => do skip value; skipFields rest

end

end Document

end Targeting.Json
