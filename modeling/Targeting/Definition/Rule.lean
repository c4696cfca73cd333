import Targeting.Definition.Formula
import Targeting.Evaluation.Engine
import Targeting.Navigation.Basic

/-!
# The rule of a definition

The conditions of the criteria are combined into the text of one rule, as the definition says.

## Main definitions

* `Targeting.Definition.toRule` — the rule of a definition, and the fields it speaks of.
* `Targeting.toRules` — the rules of several definitions; `Targeting.mergeFields` — their fields.
-/

set_option autoImplicit false

namespace Targeting

/-- Paths of fields by their objects. -/
abbrev FieldTable := Dict NameSet

/-- The table with one more field. -/
def FieldTable.add (table : FieldTable) (path : FieldPath) : FieldTable :=
  table.insert path.object (((table.get? path.object).getD ∅).insert path.field)

/-- A rule that a definition stands for. -/
structure DefinedRule where
  name : String
  rule : String
  /-- The fields that the definition's criteria speak of. -/
  fields : FieldTable
deriving DecidableEq, Inhabited

/-- The rule as a navigation has it. -/
def DefinedRule.audienceRule (defined : DefinedRule) : AudienceRule :=
  ⟨defined.name, some defined.rule⟩

/-- Why a definition has no rule. -/
inductive DefinitionError where
  | criterion (fault : CriterionFault)
  | empty (audience : String)
deriving DecidableEq, Inhabited

/-- The wording of an error. -/
def DefinitionError.message : DefinitionError → String
  | criterion fault => .join ["无效的受众条件: ", fault.message]
  | empty audience => emptyRuleMessage audience

namespace Definition

/-- The criteria in the order of their numbers; equal numbers keep their order. -/
def ordered (definition : Definition) : List Criterion :=
  sortByKey (fun criterion => (criterion.number.toNat : Int)) definition.criteria

/-- Of neighbours with one number, the last. -/
def keepLast {α : Type} : List (UInt32 × α) → List (UInt32 × α)
  | first :: second :: rest =>
    if first.1 = second.1 then keepLast (second :: rest) else first :: keepLast (second :: rest)
  | entries => entries

/-- The conditions of criteria by their numbers, or the first fault. -/
def conditions : List Criterion → Except CriterionFault (List (UInt32 × Condition))
  | [] => .ok []
  | criterion :: rest => do
    let condition ← criterion.condition
    return (criterion.number, condition) :: (← conditions rest)

/-- The fields that conditions speak of. -/
def fieldsOf (conditions : List (UInt32 × Condition)) : FieldTable :=
  (conditions.filterMap (·.2.field?)).foldl FieldTable.add ∅

/-- The texts of conditions with an operator between neighbours. -/
def join (op : Operator) (conditions : List (UInt32 × Condition)) : String :=
  (" " ++ op.symbol ++ " ").intercalate (conditions.map (·.2.text))

/-- The text of the condition of a number. -/
def textOf? (conditions : List (UInt32 × Condition)) (number : UInt32) : Option String :=
  (conditions.find? (·.1 = number)).map (·.2.text)

/-- The text of the rule in which conditions are combined. Each has another number. -/
def combine (definition : Definition) (conditions : List (UInt32 × Condition)) :
    Except CriterionFault String :=
  match definition.combination with
  | .all => .ok (join .and conditions)
  | .any => .ok (join .or conditions)
  | .formula => Formula.expand (textOf? conditions) (definition.formula.getD "")

/-- The rule of a definition. Of several criteria with one number the rule has the last; a rule that
is blank is none. -/
def toRule (definition : Definition) : Except DefinitionError DefinedRule := do
  let all ← (conditions definition.ordered).mapError .criterion
  let rule ← (definition.combine (keepLast all)).mapError .criterion
  if isBlank rule then .error (.empty definition.name)
  else return ⟨definition.name, rule, fieldsOf all⟩

end Definition

/-- The rules of several definitions, or the first error. -/
def toRules (definitions : List Definition) : Except DefinitionError (List DefinedRule) :=
  definitions.mapM Definition.toRule

/-- The fields of several rules together. -/
def mergeFields (defined : List DefinedRule) : FieldTable :=
  (defined.flatMap (·.fields.entries)).foldl
    (fun table (object, paths) =>
      table.insert object (((table.get? object).getD ∅).union paths)) ∅

end Targeting
