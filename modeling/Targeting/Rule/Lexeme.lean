import Targeting.Rule.Fault
import Targeting.Text.Blank

/-!
# Lexemes

The first reading of a rule: its text is cut into words, quoted texts, operators and parentheses.
Blanks, operators and parentheses end a word. Between single quotes everything but a quote and a
backslash stands for itself. A backslash may stand in front of a quote only, inside a quoted text
or in a word, and the two together stand for a quote.

## Main definitions

* `Targeting.Located` — a piece of a rule and its column.
* `Targeting.Lexeme` — a lexeme.
* `Targeting.lexemesOf` — the lexemes of a rule, or its first fault.
-/

set_option autoImplicit false

namespace Targeting

/-- A piece of a rule and the column of its first character, counted from 1. -/
structure Located (α : Type) where
  value : α
  column : Nat
deriving DecidableEq, Repr, Inhabited

/-- A piece of the text of a rule. -/
inductive Lexeme where
  /-- A run of other characters, not empty. -/
  | word (text : String)
  /-- The text between two quotes. -/
  | quoted (text : String)
  | operator (op : Operator)
  | opening
  | closing
deriving DecidableEq, Repr, Inhabited

/-- A text between quotes, with a backslash before each quote inside. -/
def quoteText (text : String) : String :=
  "'" ++ String.ofList (text.toList.flatMap fun c => if c = '\'' then ['\\', c] else [c]) ++ "'"

/-- The lexeme that the characters read so far belong to, with the column of its first character
and its characters, last first. A pending word has at least one character. -/
inductive Pending where
  | nothing
  | word (start : Nat) (chars : List Char)
  | quoted (start : Nat) (chars : List Char)
deriving DecidableEq, Repr, Inhabited

namespace Pending

/-- The pending lexeme with one more character, which starts a word if nothing is pending. -/
def push (pending : Pending) (column : Nat) (c : Char) : Pending :=
  match pending with
  | nothing => word column [c]
  | word start chars => word start (c :: chars)
  | quoted start chars => quoted start (c :: chars)

/-- Whether a quoted text is pending. -/
def isQuoted : Pending → Bool
  | quoted _ _ => true
  | _ => false

/-- The pending word, if there is one, as a list of at most one lexeme. -/
def flush : Pending → List (Located Lexeme)
  | word start chars => [⟨.word (String.ofList chars.reverse), start⟩]
  | _ => []

end Pending

/-- What has been read when the next character comes: all of a pending lexeme, or a backslash in
it, or the first character of an operator at a column. -/
inductive ReadState where
  | plain (pending : Pending)
  | escaping (pending : Pending)
  | operator (first : Char) (start : Nat)
deriving DecidableEq, Repr, Inhabited

namespace ReadState

/-- Reads a character that no backslash and no first half of an operator precedes; gives the lexemes
that end with it. -/
def readPlain (pending : Pending) (column : Nat) (c : Char) :
    Except RuleError (List (Located Lexeme) × ReadState) :=
  if c = '\\' then .ok ([], escaping pending)
  else if c = '\'' then
    match pending with
    | .nothing => .ok ([], plain (.quoted column []))
    | .word _ _ => .error ⟨.unexpectedQuote, column⟩
    | .quoted start chars =>
      .ok ([⟨.quoted (String.ofList chars.reverse), start⟩], plain .nothing)
  else if pending.isQuoted then .ok ([], plain (pending.push column c))
  else if isBlankChar c then .ok (pending.flush, plain .nothing)
  else if c = '(' then .ok (pending.flush ++ [⟨.opening, column⟩], plain .nothing)
  else if c = ')' then .ok (pending.flush ++ [⟨.closing, column⟩], plain .nothing)
  else if Operator.isOperatorChar c then .ok (pending.flush, operator c column)
  else .ok ([], plain (pending.push column c))

/-- Reads the character at a column; gives the lexemes that end with it. -/
def read (state : ReadState) (column : Nat) (c : Char) :
    Except RuleError (List (Located Lexeme) × ReadState) :=
  match state with
  | plain pending => readPlain pending column c
  | escaping pending =>
    if c = '\'' then .ok ([], plain (pending.push column c))
    else .error ⟨.invalidEscape, column⟩
  | operator first start =>
    match Operator.ofChars? first c with
    | some op => .ok ([⟨.operator op, start⟩], plain .nothing)
    | none => .error ⟨.unknownOperator first, start⟩

/-- The lexemes that end with the rule; `column` is the one after its last character. -/
def finish (state : ReadState) (column : Nat) : Except RuleError (List (Located Lexeme)) :=
  match state with
  | plain (.quoted start _) | escaping (.quoted start _) => .error ⟨.unterminatedLiteral, start⟩
  | plain pending => .ok pending.flush
  | escaping _ => .error ⟨.invalidEscape, column - 1⟩
  | operator first start => .error ⟨.unknownOperator first, start⟩

end ReadState

/-- Cuts the rest of a rule into lexemes; `column` is that of the next character. -/
def lexemesFrom (state : ReadState) (column : Nat) :
    List Char → Except RuleError (List (Located Lexeme))
  | [] => state.finish column
  | c :: rest => do
    let (lexemes, state) ← state.read column c
    let others ← lexemesFrom state (column + 1) rest
    return lexemes ++ others

/-- The lexemes of a rule, in order, or its first fault. -/
def lexemesOf (rule : String) : Except RuleError (List (Located Lexeme)) :=
  lexemesFrom (.plain .nothing) 1 rule.toList

end Targeting
