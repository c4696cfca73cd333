import Targeting.Sorted.NameSet
import Targeting.Text.LetterCase

/-!
# Values

What a variable or literal of a rule stands for: a text, a truth value or a set of texts.

## Main definitions

* `Targeting.Value` — the values; `Targeting.Value.render` — the text of a value.
* `Targeting.readTruth?` — the truth value that a text spells.
* `Targeting.Value.truth?` — a value as a condition.
-/

set_option autoImplicit false

namespace Targeting

/-- A text, a truth value or a set of texts. -/
inductive Value where
  | text (text : String)
  | truth (value : Bool)
  | set (items : NameSet)
deriving DecidableEq, Inhabited

/-- A truth value as a word. -/
def truthText (b : Bool) : String := if b then "true" else "false"

/-- The truth value that a text spells, whatever the case of its ASCII letters. -/
def readTruth? (text : String) : Option Bool :=
  if lowerCase text = "true" then some true
  else if lowerCase text = "false" then some false
  else none

/-- A truth value is read back from its word. -/
theorem readTruth?_truthText (b : Bool) : readTruth? (truthText b) = some b := by
  cases b <;> decide

namespace Value

/-- The text of a value: a text in quotes, a set in braces. -/
def render : Value → String
  | text s => "'" ++ s ++ "'"
  | truth b => truthText b
  | set items => "\x7b" ++ ", ".intercalate items.toList ++ "\x7d"

/-- The value as a condition: a truth value, or a text that spells one. -/
def truth? : Value → Option Bool
  | text s => readTruth? s
  | truth b => some b
  | set _ => none

end Value

end Targeting
