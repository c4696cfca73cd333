import Targeting.Decimal.Digits
import Targeting.Definition.Condition
import Targeting.Text.WordChar

/-!
# Formulas

A formula names criteria by their numbers. Its words are the longest runs of word characters; the
words `AND` and `OR` become operators, a word of ASCII digits becomes the condition of that number,
and everything else stays as it is.

## Main definitions

* `Targeting.Formula.replaceWord` — what becomes of a word.
* `Targeting.Formula.expand` — what becomes of a formula.
-/

set_option autoImplicit false

namespace Targeting.Formula

/-- The number that digits write, if it has 32 bits. -/
def number? (digits : List Char) : Option UInt32 :=
  let n := readDigits digits
  if fitsWord 32 n then some (.ofNat n) else none

/-- What becomes of a word, given the text of the condition of each number. -/
def replaceWord (condition : UInt32 → Option String) (word : List Char) :
    Except CriterionFault (List Char) :=
  if word = "AND".toList then .ok Operator.and.symbol.toList
  else if word = "OR".toList then .ok Operator.or.symbol.toList
  else if !word.isEmpty && word.all Char.isDigit then
    match (number? word).bind condition with
    | some text => .ok text.toList
    | none => .error (.unknownPlaceholder (String.ofList word))
  else .ok word

/-- What becomes of the rest of a formula; `word` has the characters of the word that is being read,
last first. -/
def expandFrom (condition : UInt32 → Option String) (word : List Char) :
    List Char → Except CriterionFault (List Char)
  | [] => replaceWord condition word.reverse
  | c :: rest =>
    if isWordChar c then expandFrom condition (c :: word) rest
    else do
      let replaced ← replaceWord condition word.reverse
      return replaced ++ c :: (← expandFrom condition [] rest)

/-- A formula with its words replaced. -/
def expand (condition : UInt32 → Option String) (formula : String) :
    Except CriterionFault String :=
  (expandFrom condition [] formula.toList).map String.ofList

end Targeting.Formula
