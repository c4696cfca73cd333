import Targeting.Snapshot.Basic
import Targeting.Rule.Lexeme

/-!
# Tokens

The second reading of a rule: each word becomes a truth value, an attribute, or the field of a
record that the snapshot has. The other lexemes keep their meaning.

## Main definitions

* `Targeting.Token` — the tokens; `Targeting.Token.render` — the text of a token.
* `Targeting.Token.ofWord` — the token of a word, if it names something.
* `Targeting.tokensOf` — the tokens of a rule.
-/

set_option autoImplicit false

namespace Targeting

/-- A token of a rule. -/
inductive Token where
  | text (text : String)
  | truth (value : Bool)
  | variable (name : Variable)
  | operator (op : Operator)
  | opening
  | closing
deriving DecidableEq, Repr, Inhabited

namespace Token

/-- Whether a token stands for a value: a literal or a variable. -/
def isOperand : Token → Bool
  | text _ | truth _ | .variable _ => true
  | operator _ | opening | closing => false

/-- The text of a token. -/
def render : Token → String
  | text s => quoteText s
  | truth b => truthText b
  | .variable v => v.name
  | operator op => op.symbol
  | opening => "("
  | closing => ")"

/-- The name of the variable that a token is. -/
def variableName? : Token → Option String
  | .variable v => some v.name
  | _ => none

/-! ## Words -/

/-- Whether a rule may speak of a field: the object has a record, and the record has the field
unless the policy forgives that it is missing. -/
def admits (snapshot : Snapshot) (policy : FieldPolicy) (path : FieldPath) : Bool :=
  match snapshot.record? path.object with
  | none => false
  | some record => record.contains path.field || policy == .lenient

/-- The token of a word. Truth values are known in any case, attributes in theirs; anything else
must be the path of a field. -/
def ofWord (snapshot : Snapshot) (policy : FieldPolicy) (word : String) : Except Fault Token :=
  match readTruth? word, Attribute.ofName? word, FieldPath.ofWord? word with
  | some b, _, _ => .ok (truth b)
  | none, some a, _ => .ok (.variable (.named a))
  | none, none, some path =>
    if admits snapshot policy path then .ok (.variable (.record path))
    else .error (.unknownVariable word)
  | none, none, none => .error (.unknownVariable word)

/-- The token of a lexeme. -/
def ofLexeme (snapshot : Snapshot) (policy : FieldPolicy) : Lexeme → Except Fault Token
  | .word word => ofWord snapshot policy word
  | .quoted s => .ok (text s)
  | .operator op => .ok (operator op)
  | .opening => .ok opening
  | .closing => .ok closing

end Token

/-- The tokens of lexemes, or the first word that names nothing. -/
def Token.ofLexemes (snapshot : Snapshot) (policy : FieldPolicy) :
    List (Located Lexeme) → Except RuleError (List (Located Token))
  | [] => .ok []
  | lexeme :: rest =>
    match ofLexeme snapshot policy lexeme.value with
    | .error fault => .error ⟨fault, lexeme.column⟩
    | .ok token => do
      let tokens ← ofLexemes snapshot policy rest
      return ⟨token, lexeme.column⟩ :: tokens

/-- The tokens of a rule in a snapshot. -/
def tokensOf (snapshot : Snapshot) (policy : FieldPolicy) (rule : String) :
    Except RuleError (List (Located Token)) := do
  Token.ofLexemes snapshot policy (← lexemesOf rule)

/-- The texts of tokens, one blank between neighbours. -/
def Token.renderAll (tokens : List (Located Token)) : String :=
  " ".intercalate (tokens.map (·.value.render))

end Targeting
