import Targeting.Snapshot.Basic
import Targeting.Value.Comparison

/-!
# Operands

What an operator of a rule works on: the value of a literal or of a variable, or one of the
attributes that have no value of their own.

## Main definitions

* `Targeting.Operand` — the operands; `Targeting.Operand.ofVariable` — the operand of a variable.
* `Targeting.Operand.orient` — two operands with the variable first.
-/

set_option autoImplicit false

namespace Targeting

/-- An operand of an operator. -/
inductive Operand where
  | literal (value : Value)
  | variable (name : Variable) (value : Value)
  /-- The attribute that stands for other audiences. -/
  | audience
  /-- An attribute that is a table and has no value. -/
  | table (name : Attribute)
deriving DecidableEq, Inhabited

namespace Operand

/-- The operand of a variable. A field that is missing is the empty text. -/
def ofVariable (snapshot : Snapshot) (v : Variable) : Operand :=
  match v with
  | .named .profile => .variable v (.text snapshot.profile)
  | .named .role => .variable v (.text snapshot.role)
  | .named .domain => .variable v (.text snapshot.domain)
  | .named .permission => .variable v (.set snapshot.permission)
  | .named .location => .variable v (.set snapshot.location)
  | .named .audience => audience
  | .named .audiencesByName => table .audiencesByName
  | .named .data => table .data
  | .record path => .variable v ((snapshot.field? path).getD (.text ""))

/-- Whether an operand comes from a variable. -/
def isVariable : Operand → Bool
  | literal _ => false
  | _ => true

/-- The value of an operand that has one. -/
def value? : Operand → Option Value
  | literal value => some value
  | .variable _ value => some value
  | audience => none
  | table _ => none

/-- An operand as a condition. -/
def truth? (operand : Operand) : Option Bool := operand.value?.bind Value.truth?

/-- The text of an operand: a variable has its name in front of its value. -/
def render : Operand → String
  | literal value => value.render
  | .variable v value => v.name ++ "=" ++ value.render
  | audience => Attribute.audience.name
  | table a => a.name

/-- Two operands in the order in which they are compared: the audience attribute first, else a
variable on the right before what stands on the left, else as written. -/
def orient (left right : Operand) : Operand × Operand :=
  if left = audience then (left, right)
  else if right = audience ∨ right.isVariable then (right, left)
  else (left, right)

end Operand

end Targeting
