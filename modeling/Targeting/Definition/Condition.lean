import Targeting.Definition.Basic
import Targeting.Rule.Lexeme
import Targeting.Rule.Variable

/-!
# Conditions

The condition of a criterion is the comparison that it stands for, as the text of a rule.

## Main definitions

* `Targeting.CriterionFault` — what is wrong with a criterion, with its wording.
* `Targeting.Condition` — a condition: a variable, an operator and a text.
* `Targeting.Criterion.condition` — the condition of a criterion.
-/

set_option autoImplicit false

namespace Targeting

/-- What is wrong with a criterion or with a formula. -/
inductive CriterionFault where
  | unknownOperator (name : String) (number : UInt32)
  | unknownType (name : String) (number : UInt32)
  /-- A field without object or path. -/
  | missingField (number : UInt32)
  | unsupportedPermission (type : String) (number : UInt32)
  /-- A value with a backslash, which no quoted text can have. -/
  | backslash (number : UInt32)
  /-- A number in a formula that no criterion has. -/
  | unknownPlaceholder (digits : String)
deriving DecidableEq, Inhabited

/-- The wording of a fault. -/
def CriterionFault.message : CriterionFault → String
  | unknownOperator name number =>
    .join ["未知的条件操作符 ", name, " (条件 ", toString number.toNat, ")"]
  | unknownType name number => .join ["未知的条件类型 ", name, " (条件 ", toString number.toNat, ")"]
  | missingField number => .join ["条件 ", toString number.toNat, " 缺少对象或字段"]
  | unsupportedPermission type number =>
    .join ["不支持的权限类型 ", type, " (条件 ", toString number.toNat, ")"]
  | backslash number => .join ["条件 ", toString number.toNat, " 的取值包含反斜杠"]
  | unknownPlaceholder digits => .join ["公式中的占位符 ", digits, " 没有对应的条件"]

/-- A comparison of a variable with a text. -/
structure Condition where
  subject : Variable
  op : Operator
  literal : String
deriving DecidableEq, Inhabited

namespace Condition

/-- The condition as the text of a rule. -/
def text (condition : Condition) : String :=
  condition.subject.name ++ " " ++ condition.op.symbol ++ " " ++ quoteText condition.literal

/-- The field that a condition speaks of, if it is about one. -/
def field? (condition : Condition) : Option FieldPath :=
  match condition.subject with
  | .record path => some path
  | .named _ => none

end Condition

namespace Criterion

/-- The operator that a criterion names. -/
def comparison? (name : String) : Option Operator :=
  match name with
  | "Equal" => some .equal
  | "NotEqual" => some .notEqual
  | "StartsWith" => some .startsWith
  | "EndsWith" => some .endsWith
  | _ => none

/-- The path of a field inside its object: without the signs at its start, and without the name of
the object if that comes first. -/
def fieldPath (object field : String) : String :=
  let path := field.toList.dropWhile (· = '$')
  let start := object.toList ++ ['.']
  String.ofList (if start.isPrefixOf path then path.drop start.length else path)

/-- The variable and the text that a criterion compares. -/
def terms (criterion : Criterion) : Except CriterionFault (Variable × String) :=
  let details := criterion.details
  match criterion.type with
  | "Audience" => .ok (.named .audience, details.audienceDeveloperName)
  | "FieldBased" =>
    let path : FieldPath := ⟨details.entityType, fieldPath details.entityType details.entityField⟩
    if path.object.isEmpty || path.field.isEmpty then .error (.missingField criterion.number)
    else .ok (.record path, details.fieldValue)
  | "Permission" =>
    if details.permissionType = "Custom" then .ok (.named .permission, details.permissionName)
    else .error (.unsupportedPermission details.permissionType criterion.number)
  | "Profile" => .ok (.named .profile, details.profile)
  | other => .error (.unknownType other criterion.number)

/-- The condition of a criterion: its operator is looked at first, then its type, then its text. -/
def condition (criterion : Criterion) : Except CriterionFault Condition :=
  match comparison? criterion.operator with
  | none => .error (.unknownOperator criterion.operator criterion.number)
  | some op =>
    match criterion.terms with
    | .error fault => .error fault
    | .ok (subject, literal) =>
      if '\\' ∈ literal.toList then .error (.backslash criterion.number)
      else .ok ⟨subject, op, literal⟩

end Criterion

end Targeting
