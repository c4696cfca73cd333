import Targeting.Rule.WellFormed

/-!
# Programs

A rule that has been read is kept as a program: its operands and operators in reverse Polish order,
so that an operator stands after its two operands and no parentheses are left.

## Main definitions

* `Targeting.reversePolish` — tokens in that order, by a stack of operators that wait.
* `Targeting.Program` — a program and the variables in it; `Targeting.Program.ofRule` of a rule.
-/

set_option autoImplicit false

namespace Targeting

/-! ## Reverse Polish order -/

/-- What waits on the stack: an operator for its second operand, or an opening parenthesis for the
closing one. -/
inductive Waiting where
  | operator (op : Operator) (column : Nat)
  | opening
deriving DecidableEq, Repr, Inhabited

namespace Waiting

/-- The token of a waiting operator. -/
def token? : Waiting → Option (Located Token)
  | operator op column => some ⟨.operator op, column⟩
  | opening => none

/-- Whether it is an operator. -/
def isOperator : Waiting → Bool
  | operator _ _ => true
  | opening => false

/-- Whether it is an operator that binds at least as tightly as another one. -/
def bindsAtLeast (op : Operator) : Waiting → Bool
  | operator waiting _ => op.precedence ≤ waiting.precedence
  | opening => false

end Waiting

/-- Tokens in reverse Polish order, after those that wait from before. An operator lets those go
first that bind at least as tightly, a closing parenthesis all down to the opening one. -/
def polishFrom : List Waiting → List (Located Token) → List (Located Token)
  | waiting, [] => waiting.filterMap Waiting.token?
  | waiting, token :: rest =>
    match token.value with
    | .opening => polishFrom (.opening :: waiting) rest
    | .closing =>
      (waiting.takeWhile Waiting.isOperator).filterMap Waiting.token? ++
        polishFrom ((waiting.dropWhile Waiting.isOperator).drop 1) rest
    | .operator op =>
      (waiting.takeWhile (Waiting.bindsAtLeast op)).filterMap Waiting.token? ++
        polishFrom (.operator op token.column :: waiting.dropWhile (Waiting.bindsAtLeast op)) rest
    | _ => token :: polishFrom waiting rest

/-- The operands and operators of a list of tokens in reverse Polish order. -/
def reversePolish (tokens : List (Located Token)) : List (Located Token) := polishFrom [] tokens

/-! ## Programs -/

/-- A rule that is ready for evaluation. -/
structure Program where
  /-- The operands and operators in reverse Polish order. -/
  code : List (Located Token)
  /-- The names of the variables of the rule. -/
  names : NameSet
deriving DecidableEq, Inhabited

/-- The program of a rule in a snapshot, or the first fault of the rule. -/
def Program.ofRule (snapshot : Snapshot) (policy : FieldPolicy) (rule : String) :
    Except RuleError Program := do
  let tokens ← tokensOf snapshot policy rule
  checkTokens tokens
  return ⟨reversePolish tokens, NameSet.ofList (tokens.filterMap (·.value.variableName?))⟩

end Targeting
