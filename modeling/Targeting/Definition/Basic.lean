import Targeting.Json.Decode

/-!
# Audience definitions

An audience as an administrator defines it: numbered criteria, and how they are combined.

## Main definitions

* `Targeting.Definition` — a definition, with its parts `Criterion` and `CriterionDetails`.
* `Targeting.Combination` — how criteria are combined.
* `Targeting.Definition.decoder`, `Targeting.Definition.toJson` — reading and writing it.
-/

set_option autoImplicit false

namespace Targeting

/-! ## The parts -/

/-- How the criteria of a definition are combined. -/
inductive Combination where
  | all
  | any
  | formula
deriving DecidableEq, Repr, Inhabited

/-- The name of a combination. -/
def Combination.name : Combination → String
  | all => "AllCriteriaMatch"
  | any => "AnyCriterionMatches"
  | formula => "CustomLogicMatches"

/-- The combination with a name. -/
def Combination.ofName? (name : String) : Option Combination :=
  [all, any, formula].find? (·.name = name)

/-- What a criterion compares. Which of the details count depends on its type. -/
structure CriterionDetails where
  entityField : String := ""
  entityType : String := ""
  fieldValue : String := ""
  permissionName : String := ""
  permissionType : String := ""
  audienceDeveloperName : String := ""
  profile : String := ""
deriving DecidableEq, Inhabited

/-- One criterion, with the number by which a formula names it. -/
structure Criterion where
  number : UInt32
  details : CriterionDetails := {}
  operator : String
  type : String
deriving DecidableEq, Inhabited

/-- An audience as an administrator defines it. -/
structure Definition where
  name : String
  criteria : List Criterion := []
  formula : Option String := none
  combination : Combination
deriving DecidableEq, Inhabited

/-! ## Reading -/

open Json

/-- Reads the details of a criterion. -/
def CriterionDetails.decoder : Decoder CriterionDetails := record
  [⟨"entityField", false, fun d v => do return { v with entityField := ← text d }⟩,
   ⟨"entityType", false, fun d v => do return { v with entityType := ← text d }⟩,
   ⟨"fieldValue", false, fun d v => do return { v with fieldValue := ← text d }⟩,
   ⟨"permissionName", false, fun d v => do return { v with permissionName := ← text d }⟩,
   ⟨"permissionType", false, fun d v => do return { v with permissionType := ← text d }⟩,
   ⟨"audienceDeveloperName", false,
    fun d v => do return { v with audienceDeveloperName := ← text d }⟩,
   ⟨"profile", false, fun d v => do return { v with profile := ← text d }⟩] {}

/-- Reads a criterion. -/
def Criterion.decoder : Decoder Criterion := record
  [⟨"criteriaNumber", true, fun d c => do return { c with number := .ofNat (← natural 32 d) }⟩,
   ⟨"criterionValue", false,
    fun d c => do return { c with details := ← CriterionDetails.decoder d }⟩,
   ⟨"operator", true, fun d c => do return { c with operator := ← text d }⟩,
   ⟨"type", true, fun d c => do return { c with type := ← text d }⟩]
  { number := 0, operator := "", type := "" }

/-- Reads a definition. -/
def Definition.decoder : Decoder Definition := record
  [⟨"name", true, fun d a => do return { a with name := ← text d }⟩,
   ⟨"criteria", false, fun d a => do return { a with criteria := ← list Criterion.decoder d }⟩,
   ⟨"formula", false, fun d a => do return { a with formula := ← optional text d }⟩,
   ⟨"formulaFilterType", true,
    fun d a => do return { a with combination := ← oneOf Combination.ofName? d }⟩]
  { name := "", combination := .all }

/-! ## Writing -/

/-- The details of a criterion as a value. -/
def CriterionDetails.toJson (details : CriterionDetails) : Json := .ofFields
  [("entityField", .string details.entityField), ("entityType", .string details.entityType),
   ("fieldValue", .string details.fieldValue), ("permissionName", .string details.permissionName),
   ("permissionType", .string details.permissionType),
   ("audienceDeveloperName", .string details.audienceDeveloperName),
   ("profile", .string details.profile)]

/-- A criterion as a value. -/
def Criterion.toJson (criterion : Criterion) : Json := .ofFields
  [("criteriaNumber", .ofInt criterion.number.toNat), ("criterionValue", criterion.details.toJson),
   ("operator", .string criterion.operator), ("type", .string criterion.type)]

/-- A definition as a value. -/
def Definition.toJson (definition : Definition) : Json := .ofFields
  [("name", .string definition.name),
   ("criteria", .array (definition.criteria.map Criterion.toJson)),
   ("formula", .ofText? definition.formula),
   ("formulaFilterType", .string definition.combination.name)]

end Targeting
