import Mathlib.Order.Nat
import Targeting.Rule.Program

/-!
# Expressions

The tokens of a rule are read by a grammar with three levels of operators:

    disjunction ::= conjunction | disjunction '||' conjunction
    conjunction ::= comparison  | conjunction '&&' comparison
    comparison  ::= primary     | comparison  op   primary
    primary     ::= operand     | '(' disjunction ')'

where `op` is one of the four comparison operators. A tree of the grammar is an *expression*.

## Main definitions

* `Targeting.Expression` — the trees, with `tokens` (as written), `postOrder` and `nodes`.
* `Targeting.Derives` — the grammar, one constructor for each production.
* `Targeting.Expression.FitsAt` — the same by recursion on the tree: what stands at which level.

## Main results

* `Targeting.derives_iff` — a tree is derived exactly when it fits and has the tokens.
* `Targeting.Expression.FitsAt.binding_of_mem_nodes` — operators associate to the left.
-/

set_option autoImplicit false

namespace Targeting

/-- An operand as it is written: a literal or a variable. -/
inductive Atom where
  | text (text : String)
  | truth (value : Bool)
  | variable (name : Variable)
deriving DecidableEq, Repr, Inhabited

/-- The token of an operand. -/
def Atom.token : Atom → Token
  | text s => .text s
  | truth b => .truth b
  | .variable v => .variable v

/-- An operand, an expression between two parentheses, or an operator between two expressions, with
the columns of their tokens. -/
inductive Expression where
  | atom (atom : Atom) (column : Nat)
  | group (opening : Nat) (inner : Expression) (closing : Nat)
  | binary (op : Operator) (column : Nat) (left right : Expression)
deriving DecidableEq, Repr, Inhabited

/-- Every operator has a level of the grammar. -/
lemma Operator.one_le_precedence (op : Operator) : 1 ≤ op.precedence := by cases op <;> decide

/-- No operator binds as tightly as an operand or a group. -/
lemma Operator.precedence_lt_four (op : Operator) : op.precedence < 4 := by cases op <;> decide

namespace Expression

/-- The tokens of an expression in the order in which they are written. -/
def tokens : Expression → List (Located Token)
  | atom a column => [⟨a.token, column⟩]
  | group opening inner closing => ⟨.opening, opening⟩ :: (inner.tokens ++ [⟨.closing, closing⟩])
  | binary op column left right => left.tokens ++ ⟨.operator op, column⟩ :: right.tokens

/-- The operands and operators of an expression, each operator after its operands. -/
def postOrder : Expression → List (Located Token)
  | atom a column => [⟨a.token, column⟩]
  | group _ inner _ => inner.postOrder
  | binary op column left right => left.postOrder ++ right.postOrder ++ [⟨.operator op, column⟩]

/-- All expressions inside an expression and itself, each after those inside it. -/
def nodes : Expression → List Expression
  | atom a column => [atom a column]
  | group opening inner closing => inner.nodes ++ [group opening inner closing]
  | binary op column left right => left.nodes ++ right.nodes ++ [binary op column left right]

/-- How tightly the outermost operator of an expression binds; an operand or a group binds more
tightly than any operator. -/
def binding : Expression → Nat
  | binary op _ _ _ => op.precedence
  | _ => 4

/-- Whether an expression can stand at a level: its operators outside parentheses have that level
at least, none stands to the right of one that binds as tightly, and what is in parentheses is free
of this. -/
def FitsAt : Nat → Expression → Prop
  | _, atom _ _ => True
  | _, group _ inner _ => inner.FitsAt 1
  | level, binary op _ left right =>
    level ≤ op.precedence ∧ left.FitsAt op.precedence ∧ right.FitsAt (op.precedence + 1)

/-- What fits at a level fits at each lower one. -/
lemma FitsAt.mono {level lower : Nat} {e : Expression} (h : e.FitsAt level) (hle : lower ≤ level) :
    e.FitsAt lower := by
  cases e with
  | atom a column => trivial
  | group opening inner closing => exact h
  | binary op column left right => exact ⟨hle.trans h.1, h.2⟩

/-- What fits at a level binds as tightly as the level asks. -/
lemma FitsAt.le_binding {level : Nat} {e : Expression} (h : e.FitsAt level) (hle : level ≤ 4) :
    level ≤ e.binding := by
  cases e with
  | atom a column => exact hle
  | group opening inner closing => exact hle
  | binary op column left right => exact h.1

/-- In an expression that fits, operators associate to the left: the left operand of each operator
binds at least as tightly as the operator, and the right one more tightly. -/
lemma FitsAt.binding_of_mem_nodes {level : Nat} {e : Expression} (h : e.FitsAt level)
    {op : Operator} {column : Nat} {left right : Expression}
    (hmem : .binary op column left right ∈ e.nodes) :
    op.precedence ≤ left.binding ∧ op.precedence < right.binding := by
  induction e generalizing level with
  | atom a place => simp [nodes] at hmem
  | group opening inner closing ih =>
    have hmem : .binary op column left right ∈ inner.nodes := by simpa [nodes] using hmem
    exact ih h hmem
  | binary op' column' left' right' ihl ihr =>
    obtain ⟨-, hleft, hright⟩ := h
    simp only [nodes, List.mem_append, List.mem_singleton] at hmem
    rcases hmem with (hmem | hmem) | heq
    · exact ihl hleft hmem
    · exact ihr hright hmem
    · obtain ⟨rfl, rfl, rfl, rfl⟩ := Expression.binary.inj heq
      have hop := op.precedence_lt_four
      exact ⟨hleft.le_binding hop.le, hright.le_binding hop⟩

end Expression

/-! ## The grammar -/

/-- The nonterminals of the grammar. -/
inductive Phrase where
  | disjunction
  | conjunction
  | comparison
  | primary
deriving DecidableEq, Repr, Inhabited

/-- The lowest level of an operator outside parentheses that a phrase may have. -/
def Phrase.level : Phrase → Nat
  | disjunction => 1
  | conjunction => 2
  | comparison => 3
  | primary => 4

/-- The tokens that a phrase derives, with the tree of the derivation. -/
inductive Derives : Phrase → List (Located Token) → Expression → Prop
  | ofConjunction {tokens e} : Derives .conjunction tokens e → Derives .disjunction tokens e
  | or {left right a b} (column : Nat) :
    Derives .disjunction left a → Derives .conjunction right b →
      Derives .disjunction (left ++ ⟨.operator .or, column⟩ :: right) (.binary .or column a b)
  | ofComparison {tokens e} : Derives .comparison tokens e → Derives .conjunction tokens e
  | and {left right a b} (column : Nat) :
    Derives .conjunction left a → Derives .comparison right b →
      Derives .conjunction (left ++ ⟨.operator .and, column⟩ :: right) (.binary .and column a b)
  | ofPrimary {tokens e} : Derives .primary tokens e → Derives .comparison tokens e
  | compare {left right a b op} (column : Nat) : op.isComparison = true →
    Derives .comparison left a → Derives .primary right b →
      Derives .comparison (left ++ ⟨.operator op, column⟩ :: right) (.binary op column a b)
  | operand (a : Atom) (column : Nat) : Derives .primary [⟨a.token, column⟩] (.atom a column)
  | group {tokens e} (opening closing : Nat) : Derives .disjunction tokens e →
      Derives .primary (⟨.opening, opening⟩ :: (tokens ++ [⟨.closing, closing⟩]))
        (.group opening e closing)

/-- A primary is a phrase of every kind. -/
lemma Derives.of_primary {tokens : List (Located Token)} {e : Expression}
    (h : Derives .primary tokens e) (phrase : Phrase) : Derives phrase tokens e := by
  cases phrase with
  | disjunction => exact .ofConjunction (.ofComparison (.ofPrimary h))
  | conjunction => exact .ofComparison (.ofPrimary h)
  | comparison => exact .ofPrimary h
  | primary => exact h

/-- A derived tree has the tokens and fits at the level of the phrase. -/
lemma Derives.fits {phrase : Phrase} {tokens : List (Located Token)} {e : Expression}
    (h : Derives phrase tokens e) : e.tokens = tokens ∧ e.FitsAt phrase.level := by
  induction h with
  | ofConjunction _ ih | ofComparison _ ih | ofPrimary _ ih =>
    exact ⟨ih.1, ih.2.mono (by simp [Phrase.level])⟩
  | or column _ _ ihl ihr | and column _ _ ihl ihr =>
    exact ⟨by simp [Expression.tokens, ihl.1, ihr.1], le_rfl, ihl.2, ihr.2⟩
  | compare column hop _ _ ihl ihr =>
    have hop := eq_of_beq hop
    refine ⟨by simp [Expression.tokens, ihl.1, ihr.1], hop.ge, ?_, ?_⟩
    · rw [hop]; exact ihl.2
    · rw [hop]; exact ihr.2
  | operand a column => exact ⟨rfl, trivial⟩
  | group opening closing _ ih => exact ⟨by simp [Expression.tokens, ih.1], ih.2⟩

/-- A tree that fits at the level of a phrase is derived from it.

**Proof sketch.** Induction on the tree. An atom and a group are primaries, which every phrase
admits. A binary node is derived by the rule of its operator from its operands, which fit at the
levels that this rule asks for, and then lifted to the phrase. Where its operator binds less tightly
than the phrase does, it does not fit. -/
lemma Expression.FitsAt.derives {e : Expression} {phrase : Phrase} (h : e.FitsAt phrase.level) :
    Derives phrase e.tokens e := by
  induction e generalizing phrase with
  | atom a column => exact (Derives.operand a column).of_primary phrase
  | group opening inner closing ih =>
    have hinner : Derives .disjunction inner.tokens inner := ih h
    exact (Derives.group opening closing hinner).of_primary phrase
  | binary op column left right ihl ihr =>
    obtain ⟨hlevel, hleft, hright⟩ := h
    cases op with
    | or =>
      have hleft : Derives .disjunction left.tokens left := ihl hleft
      have hright : Derives .conjunction right.tokens right := ihr hright
      cases phrase <;> simp [Phrase.level, Operator.precedence] at hlevel
      exact .or column hleft hright
    | and =>
      have hleft : Derives .conjunction left.tokens left := ihl hleft
      have hright : Derives .comparison right.tokens right := ihr hright
      have hand := Derives.and column hleft hright
      cases phrase <;> simp [Phrase.level, Operator.precedence] at hlevel
      · exact .ofConjunction hand
      · exact hand
    | equal | notEqual | startsWith | endsWith =>
      have hleft : Derives .comparison left.tokens left := ihl hleft
      have hright : Derives .primary right.tokens right := ihr hright
      cases phrase <;> simp [Phrase.level, Operator.precedence] at hlevel
      · exact .ofConjunction (.ofComparison (.compare column rfl hleft hright))
      · exact .ofComparison (.compare column rfl hleft hright)
      · exact .compare column rfl hleft hright

/-- A phrase derives a tree exactly when the tree fits at its level and has the tokens. -/
theorem derives_iff {phrase : Phrase} {tokens : List (Located Token)} {e : Expression} :
    Derives phrase tokens e ↔ e.tokens = tokens ∧ e.FitsAt phrase.level :=
  ⟨Derives.fits, fun ⟨htokens, hfits⟩ => htokens ▸ hfits.derives⟩

end Targeting
