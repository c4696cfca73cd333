import Targeting.Rule.Token

/-!
# Well-formed rules

Whether a list of tokens is an expression: operands joined by operators, with parentheses around
expressions. The check goes through the tokens once and stops at the first that cannot stand.

## Main definitions

* `Targeting.checkTokens` — the check.
-/

set_option autoImplicit false

namespace Targeting

/-- Where the check stands between two tokens. -/
structure Outlook where
  /-- The columns of the parentheses that are open, innermost first. -/
  opened : List Nat := []
  /-- Whether an expression has just ended, so that an operator may follow. -/
  complete : Bool := false
  /-- The column of the last token. -/
  last : Nat := 1
deriving DecidableEq, Repr, Inhabited

namespace Outlook

/-- The check of one token. -/
def next (outlook : Outlook) (token : Located Token) : Except RuleError Outlook :=
  match token.value with
  | .opening =>
    if outlook.complete then .error ⟨.expectedOperator, token.column⟩
    else .ok ⟨token.column :: outlook.opened, false, token.column⟩
  | .closing =>
    match outlook.opened with
    | [] => .error ⟨.unmatchedClosing, token.column⟩
    | _ :: opened =>
      if outlook.complete then .ok ⟨opened, true, token.column⟩
      else .error ⟨.expectedOperand, token.column⟩
  | .operator _ =>
    if outlook.complete then .ok ⟨outlook.opened, false, token.column⟩
    else .error ⟨.unexpectedOperator, token.column⟩
  | _ =>
    if outlook.complete then .error ⟨.expectedOperator, token.column⟩
    else .ok ⟨outlook.opened, true, token.column⟩

/-- The check at the end of the tokens. -/
def finish (outlook : Outlook) : Except RuleError Unit :=
  match outlook.opened with
  | column :: _ => .error ⟨.unclosedOpening, column⟩
  | [] => if outlook.complete then .ok () else .error ⟨.expectedOperand, outlook.last⟩

end Outlook

/-- Checks that tokens form an expression. -/
def checkTokens (tokens : List (Located Token)) : Except RuleError Unit :=
  if tokens.isEmpty then .error ⟨.emptyExpression, 1⟩
  else do (← tokens.foldlM Outlook.next {}).finish

end Targeting
