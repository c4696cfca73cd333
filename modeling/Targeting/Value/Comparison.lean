import Targeting.Rule.Operator
import Targeting.Value.Basic

/-!
# Comparison of values

What the four comparison operators say of two values. Single values are compared after a text that
spells a truth value has become one. A set is compared with a text item by item: it equals a text
when it has it, and it starts or ends with a text when one of its items that is not empty does.

## Main definitions

* `Targeting.Value.compare?` — the result of an operator on two values, if it applies to them.
-/

set_option autoImplicit false

namespace Targeting

/-- Whether a text starts with another. -/
def startsWith (text start : String) : Bool := start.toList.isPrefixOf text.toList

/-- Whether a text ends with another. -/
def endsWith (text ending : String) : Bool := ending.toList.isSuffixOf text.toList

/-- A single value: a text that spells no truth value, or a truth value. -/
inductive Scalar where
  | text (text : String)
  | truth (value : Bool)
deriving DecidableEq, Inhabited

namespace Scalar

/-- The single value of a text. -/
def ofText (s : String) : Scalar :=
  match readTruth? s with
  | some b => truth b
  | none => text s

/-- The text of a single value. -/
def toText : Scalar → String
  | text s => s
  | truth b => truthText b

/-- What a comparison says of two single values. A text never equals a truth value. -/
def compare? (op : Operator) (a b : Scalar) : Option Bool :=
  match op with
  | .equal => some (a = b)
  | .notEqual => some (a ≠ b)
  | .startsWith => some (startsWith a.toText b.toText)
  | .endsWith => some (endsWith a.toText b.toText)
  | .and | .or => none

end Scalar

namespace Value

/-- The single value of a value that is no set. -/
def scalar? : Value → Option Scalar
  | text s => some (.ofText s)
  | truth b => some (.truth b)
  | set _ => none

/-- What a comparison says of two values, the variable's value first; none if it does not apply. -/
def compare? (op : Operator) (subject other : Value) : Option Bool :=
  match subject, other with
  | set items, text s =>
    match op with
    | .equal => some (items.contains s)
    | .notEqual => some (!items.contains s)
    | .startsWith => some (items.toList.any fun item => !item.isEmpty && startsWith item s)
    | .endsWith => some (items.toList.any fun item => !item.isEmpty && endsWith item s)
    | .and | .or => none
  | text s, set items =>
    match op with
    | .equal => some (items.contains s)
    | .notEqual => some (!items.contains s)
    | _ => none
  | a, b => do Scalar.compare? op (← a.scalar?) (← b.scalar?)

end Value

end Targeting
