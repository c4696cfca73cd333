/-!
# Variables

A rule speaks of the visitor's attributes by fixed names and of the fields of related records by
paths: the name of the object, a point, and the path of the field inside its record.

## Main definitions

* `Targeting.Attribute` — the attributes with fixed names.
* `Targeting.FieldPath` — the field of a record; `ofWord?` and `text` read and write it.
* `Targeting.Variable` — either of them.
-/

set_option autoImplicit false

namespace Targeting

/-- An attribute that a rule names by a fixed name. -/
inductive Attribute where
  | profile
  | role
  | domain
  /-- Stands for other audiences: compared with a name, it is the outcome of that audience. -/
  | audience
  | permission
  | location
  /-- The table of rules, which takes part in no operation. -/
  | audiencesByName
  /-- The table of records, which takes part in no operation. -/
  | data
deriving DecidableEq, Repr, Inhabited

namespace Attribute

/-- All attributes. -/
def all : List Attribute :=
  [profile, role, domain, audience, permission, location, audiencesByName, data]

/-- The name of an attribute. -/
def name : Attribute → String
  | profile => "Profile"
  | role => "Role"
  | domain => "Domain"
  | audience => "Audience"
  | permission => "Permission"
  | location => "Location"
  | audiencesByName => "AudiencesByName"
  | data => "Data"

/-- The attribute with a name, in the same case. -/
def ofName? (name : String) : Option Attribute := all.find? (·.name = name)

/-- An attribute is read back from its name. -/
theorem ofName?_name (a : Attribute) : ofName? a.name = some a := by cases a <;> decide

end Attribute

/-- The field of a record of an object. -/
structure FieldPath where
  object : String
  field : String
deriving DecidableEq, Repr, Inhabited

namespace FieldPath

/-- The path as a word of a rule. -/
def text (path : FieldPath) : String := path.object ++ "." ++ path.field

/-- The path that a word spells: the object up to the first point, and after it the field, which is
not empty. -/
def ofWord? (word : String) : Option FieldPath :=
  let object := word.toList.takeWhile (· ≠ '.')
  match word.toList.dropWhile (· ≠ '.') with
  | _ :: c :: field => some ⟨String.ofList object, String.ofList (c :: field)⟩
  | _ => none

/-- A word that spells a path is the text of the path. -/
theorem text_of_ofWord? {word : String} {path : FieldPath} (h : ofWord? word = some path) :
    path.text = word := by
  simp only [ofWord?] at h
  split at h
  · rename_i point c field eq
    obtain rfl := Option.some.inj h
    have head := List.head?_dropWhile_not (· ≠ '.') word.toList
    have whole := List.takeWhile_append_dropWhile (p := (· ≠ '.')) (l := word.toList)
    rw [eq] at head whole
    obtain rfl : point = '.' := by simpa using head
    refine String.toList_inj.1 (Eq.trans ?_ whole)
    simp [text]
  · contradiction

end FieldPath

/-- A variable of a rule. -/
inductive Variable where
  | named (name : Attribute)
  | record (path : FieldPath)
deriving DecidableEq, Repr, Inhabited

/-- The name of a variable, as rules write it. -/
def Variable.name : Variable → String
  | named a => a.name
  | record path => path.text

end Targeting
