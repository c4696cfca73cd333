import Targeting.Rule.Operator

/-!
# Faults of a rule

What can be wrong with a rule, and where. A fault is found while the rule is read or while it is
evaluated; the column is that of the character or of the operator at fault, counted from 1.

## Main definitions

* `Targeting.Fault` — the causes, with the wording in `Targeting.Fault.message`.
* `Targeting.RuleError` — a cause and a column.
-/

set_option autoImplicit false

namespace Targeting

/-- What is wrong with a rule. -/
inductive Fault where
  /-- A quoted text without its closing quote. -/
  | unterminatedLiteral
  /-- A backslash in front of something else than a quote. -/
  | invalidEscape
  /-- A quote inside a word. -/
  | unexpectedQuote
  /-- A character of an operator that begins none. -/
  | unknownOperator (char : Char)
  /-- A closing parenthesis without an opening one. -/
  | unmatchedClosing
  /-- An opening parenthesis without a closing one. -/
  | unclosedOpening
  /-- An operand where an operator has to stand. -/
  | expectedOperator
  /-- An operator where an operand has to stand. -/
  | unexpectedOperator
  /-- No operand where one has to stand. -/
  | expectedOperand
  /-- A word that names nothing in the snapshot. -/
  | unknownVariable (word : String)
  /-- An operator without two operands. -/
  | missingOperand (op : Operator)
  /-- A rule without operands. -/
  | emptyExpression
  /-- A result that is neither true nor false. -/
  | nonBooleanResult (result : String)
  /-- An operator that does not apply to its operands. -/
  | unsupportedComparison (op : Operator) (left right : String)
  /-- A reference to an audience without a rule. -/
  | unknownAudience (name : String)
  /-- A reference to an audience that is being evaluated. -/
  | cyclicReference (name : String)
  /-- A reference below more references than are allowed. -/
  | depthExceeded (limit : Nat)
deriving DecidableEq, Repr, Inhabited

/-- A fault and the column at which it was found. -/
structure RuleError where
  fault : Fault
  column : Nat
deriving DecidableEq, Repr, Inhabited

/-- The wording of a fault. -/
def Fault.message : Fault → String
  | unterminatedLiteral => "字符串字面量未闭合"
  | invalidEscape => "无效的转义序列（字面量中只允许 \\'）"
  | unexpectedQuote => "意外的单引号"
  | unknownOperator char => .join ["未知的操作符: ", .singleton char]
  | unmatchedClosing => "多余的右括号"
  | unclosedOpening => "括号未闭合"
  | expectedOperator => "此处应为操作符"
  | unexpectedOperator => "此处不应出现操作符"
  | expectedOperand => "此处应为操作数"
  | unknownVariable word => .join ["未知变量: ", word]
  | missingOperand op => .join ["操作符 ", op.symbol, " 缺少操作数"]
  | emptyExpression => "表达式为空"
  | nonBooleanResult result => .join ["表达式结果不是布尔值: ", result]
  | unsupportedComparison op left right =>
    .join ["不支持的比较: ", left, " ", op.symbol, " ", right]
  | unknownAudience name => .join ["未注册的受众: ", name]
  | cyclicReference name => .join ["受众循环引用: ", name]
  | depthExceeded limit => .join ["受众引用嵌套超过上限 ", toString limit]

/-- The wording of a fault with its column. -/
def RuleError.message (error : RuleError) : String :=
  .join [error.fault.message, " (列 ", toString error.column, ")"]

end Targeting
