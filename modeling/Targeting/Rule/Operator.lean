/-!
# Operators

The six binary operators of a rule. Each is written with two characters; comparisons bind
tightest, then `&&`, then `||`, and all group to the left.

## Main definitions

* `Targeting.Operator` — the operators, with `symbol` and `ofSymbol?`.
* `Targeting.Operator.precedence` — how tightly an operator binds.
-/

set_option autoImplicit false

namespace Targeting

/-- A binary operator of a rule. -/
inductive Operator where
  | equal
  | notEqual
  | startsWith
  | endsWith
  | and
  | or
deriving DecidableEq, Repr, Inhabited

namespace Operator

/-- All operators. -/
def all : List Operator := [equal, notEqual, startsWith, endsWith, and, or]

/-- The two characters of an operator. -/
def chars : Operator → Char × Char
  | equal => ('=', '=')
  | notEqual => ('!', '=')
  | startsWith => ('=', '~')
  | endsWith => ('~', '=')
  | and => ('&', '&')
  | or => ('|', '|')

/-- The text of an operator. -/
def symbol (op : Operator) : String := String.ofList [op.chars.1, op.chars.2]

/-- The operator written with two characters. -/
def ofChars? (first second : Char) : Option Operator := all.find? (·.chars = (first, second))

/-- The operator with a text. -/
def ofSymbol? (symbol : String) : Option Operator := all.find? (·.symbol = symbol)

/-- How tightly an operator binds: comparisons 3, conjunction 2, disjunction 1. -/
def precedence : Operator → Nat
  | equal | notEqual | startsWith | endsWith => 3
  | and => 2
  | or => 1

/-- Whether the operator compares two values. -/
def isComparison (op : Operator) : Bool := op.precedence == 3

/-- Whether a character can begin an operator. -/
def isOperatorChar (c : Char) : Bool := c = '&' || c = '|' || c = '=' || c = '!' || c = '~'

/-- Every operator is listed. -/
theorem mem_all (op : Operator) : op ∈ all := by cases op <;> decide

/-- An operator is read back from its two characters. -/
theorem ofChars?_chars (op : Operator) : ofChars? op.chars.1 op.chars.2 = some op := by
  cases op <;> decide

/-- Two characters are read as an operator exactly when they are its characters. -/
theorem ofChars?_eq_some_iff {first second : Char} {op : Operator} :
    ofChars? first second = some op ↔ op.chars = (first, second) := by
  constructor
  · intro h; simpa using List.find?_some h
  · intro h; rw [← ofChars?_chars op, h]

/-- An operator is read back from its text. -/
theorem ofSymbol?_symbol (op : Operator) : ofSymbol? op.symbol = some op := by
  cases op <;> decide

end Operator

end Targeting
