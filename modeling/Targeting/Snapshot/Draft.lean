import Targeting.Snapshot.Basic
import Targeting.Rule.Lexeme

/-!
# Building snapshots

A snapshot is built from a list of edits. Under the lenient policy the finished snapshot has every
field that a registered rule mentions of a record that is there: those that are missing are empty.

## Main definitions

* `Targeting.Snapshot.Edit` — one step of the building.
* `Targeting.Snapshot.Draft` — a snapshot that is being built, with its policy.
* `Targeting.Snapshot.mentioned` — the fields that a rule mentions.
* `Targeting.Snapshot.Draft.finish` — the finished snapshot of a draft.
* `Targeting.Snapshot.ofEdits` — the snapshot that edits build.
-/

set_option autoImplicit false

namespace Targeting.Snapshot

/-- One step of the building of a snapshot. -/
inductive Edit where
  | profile (name : String)
  | role (name : String)
  | domain (name : String)
  | audience (name : String)
  | permissions (names : List String)
  | locations (names : List String)
  | rule (audience text : String)
  | record (object : String)
  | fields (object : String) (values : List (String × Value))
  | policy (policy : FieldPolicy)

/-- A snapshot that is being built. -/
structure Draft where
  snapshot : Snapshot := {}
  policy : FieldPolicy := .lenient
deriving Inhabited

/-! ## Edits -/

/-- The snapshot with more fields in the record of an object, which is there afterwards. -/
def withFields (snapshot : Snapshot) (object : String) (values : List (String × Value)) :
    Snapshot :=
  let record := values.foldl (fun record (path, value) => record.insert path value)
    ((snapshot.record? object).getD ∅)
  { snapshot with data := snapshot.data.insert object record }

/-- The draft after one edit. Texts, rules and values replace earlier ones, sets grow. -/
def Draft.edit (draft : Draft) : Edit → Draft
  | .profile name => { draft with snapshot.profile := name }
  | .role name => { draft with snapshot.role := name }
  | .domain name => { draft with snapshot.domain := name }
  | .audience name => { draft with snapshot.audience := name }
  | .permissions names =>
    { draft with snapshot.permission := names.foldl NameSet.insert draft.snapshot.permission }
  | .locations names =>
    { draft with snapshot.location := names.foldl NameSet.insert draft.snapshot.location }
  | .rule audience text =>
    { draft with snapshot.rules := draft.snapshot.rules.insert audience text }
  | .record object => { draft with snapshot := draft.snapshot.withFields object [] }
  | .fields object values => { draft with snapshot := draft.snapshot.withFields object values }
  | .policy policy => { draft with policy }

/-! ## Fields that rules mention -/

/-- The fields that the words of a rule spell, in order; none if the rule cannot be cut
into lexemes. -/
def mentioned (rule : String) : List FieldPath :=
  match lexemesOf rule with
  | .error _ => []
  | .ok lexemes => lexemes.filterMap fun lexeme =>
    match lexeme.value with
    | .word word => FieldPath.ofWord? word
    | _ => none

/-- The records with an empty field at a path, if the object has a record that lacks it. -/
def fillField (data : Dict (Dict Value)) (path : FieldPath) : Dict (Dict Value) :=
  match data.get? path.object with
  | none => data
  | some record =>
    if record.contains path.field then data
    else data.insert path.object (record.insert path.field (.text ""))

/-- The snapshot with an empty field wherever a registered rule mentions a missing one. -/
def fillMentioned (snapshot : Snapshot) : Snapshot :=
  let paths := snapshot.rules.entries.flatMap fun (_, rule) => mentioned rule
  { snapshot with data := paths.foldl fillField snapshot.data }

/-- The finished snapshot. -/
def Draft.finish (draft : Draft) : Snapshot :=
  match draft.policy with
  | .lenient => draft.snapshot.fillMentioned
  | .strict => draft.snapshot

/-- The snapshot that a list of edits builds. -/
def ofEdits (edits : List Edit) : Snapshot := (edits.foldl Draft.edit {}).finish

end Targeting.Snapshot
