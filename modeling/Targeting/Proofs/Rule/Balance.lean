import Mathlib.Data.List.Basic
import Targeting.Proofs.Rule.Concatenation
import Targeting.Proofs.Rule.WellFormed

/-!
# The check without columns

Whether tokens form an expression depends on two things that the check keeps track of: how many
parentheses are open, and whether an expression has just ended. Tokens that form an expression of
their own act on these as a single operand does, wherever they stand. So an operand may be replaced
by an expression: the tokens around it pass the check exactly when they did before.

How tightly operators bind makes no difference to this. The check accepts what a grammar without
precedence derives,

    expression ::= operand | '(' expression ')' | expression operator expression

although this grammar has many trees for one and the same tokens.

A rule can be checked by itself, without a snapshot: its words are operands whatever they name.

## Main definitions

* `Targeting.Balance` — what the check keeps track of, with `next` and `after`.
* `Targeting.IsWhole` — whether tokens form an expression.
* `Targeting.IsExpression` — the grammar without precedence.
* `Targeting.Lexeme.asToken`, `Targeting.IsWellFormed` — the check of a rule by itself.
* `Targeting.ActsAs` — texts that act as certain tokens.

## Main results

* `Targeting.checkTokens_eq_ok_iff_isWhole` — the check passes whatever the columns are.
* `Targeting.checkTokens_eq_ok_iff_isExpression` — it accepts exactly what the grammar derives.
* `Targeting.IsWhole.after_eq` — an expression acts as an operand.
* `Targeting.Spells.isWellFormed_iff` — a rule is well formed by the lexemes that it spells.
* `Targeting.ActsAs.operand` — a well-formed rule in front of a text, in the place of an operand.
-/

set_option autoImplicit false

namespace Targeting

/-! ## Balances -/

/-- How many parentheses are open, and whether an expression has just ended. -/
structure Balance where
  opened : Nat := 0
  complete : Bool := false
deriving DecidableEq, Inhabited

namespace Balance

/-- The balance after one token, unless the token may not stand there. -/
def next (balance : Balance) : Token → Option Balance
  | .opening => if balance.complete then none else some ⟨balance.opened + 1, false⟩
  | .closing =>
    match balance.opened with
    | 0 => none
    | opened + 1 => if balance.complete then some ⟨opened, true⟩ else none
  | .operator _ => if balance.complete then some ⟨balance.opened, false⟩ else none
  | _ => if balance.complete then none else some ⟨balance.opened, true⟩

/-- The balance after tokens. -/
def after (balance : Balance) (tokens : List Token) : Option Balance := tokens.foldlM next balance

/-- Tokens one behind the other. -/
lemma after_append (balance : Balance) (left right : List Token) :
    balance.after (left ++ right) = (balance.after left).bind (·.after right) :=
  List.foldlM_append

/-- A token in front of tokens. -/
lemma after_cons (balance : Balance) (token : Token) (tokens : List Token) :
    balance.after (token :: tokens) = (balance.next token).bind (·.after tokens) :=
  List.foldlM_cons

/-- More open parentheses further out make no difference to one token that may stand.

**Proof sketch.** By cases on the token and on whether the expression is complete. Only the number
of open parentheses is changed by a token, and it is looked at by a closing one alone, which needs
one open. -/
lemma next_add {balance other : Balance} {token : Token} (h : balance.next token = some other)
    (count : Nat) :
    next ⟨balance.opened + count, balance.complete⟩ token =
      some ⟨other.opened + count, other.complete⟩ := by
  obtain ⟨opened, complete⟩ := balance
  cases token with
  | closing =>
    cases opened with
    | zero => cases h
    | succ opened =>
      cases complete with
      | false => cases h
      | true =>
        obtain rfl := Option.some.inj h
        rw [Nat.add_right_comm]
        rfl
  | opening =>
    cases complete with
    | true => cases h
    | false =>
      obtain rfl := Option.some.inj h
      exact congrArg (fun n => some (Balance.mk n false)) (Nat.add_right_comm opened count 1)
  | operator op =>
    cases complete with
    | false => cases h
    | true =>
      obtain rfl := Option.some.inj h
      rfl
  | text | truth | «variable» =>
    cases complete with
    | true => cases h
    | false =>
      obtain rfl := Option.some.inj h
      rfl

/-- More open parentheses further out make no difference to tokens that may stand. -/
lemma after_add {balance other : Balance} {tokens : List Token}
    (h : balance.after tokens = some other) (count : Nat) :
    after ⟨balance.opened + count, balance.complete⟩ tokens =
      some ⟨other.opened + count, other.complete⟩ := by
  induction tokens generalizing balance with
  | nil =>
    obtain rfl := Option.some.inj h
    rfl
  | cons token tokens ih =>
    rw [after_cons] at h ⊢
    obtain ⟨inner, hinner, h⟩ := Option.bind_eq_some_iff.1 h
    rw [next_add hinner]
    exact ih h

end Balance

/-! ## Expressions -/

/-- Whether tokens form an expression. -/
def IsWhole (tokens : List Token) : Prop := Balance.after {} tokens = some ⟨0, true⟩

instance : DecidablePred IsWhole := fun tokens =>
  inferInstanceAs (Decidable (Balance.after {} tokens = some ⟨0, true⟩))

/-- **An expression acts as an operand.** Where an operand may stand, tokens that form an expression
may, and nowhere else; and they leave the same balance.

**Proof sketch.** Where an expression is due, the tokens leave what one operand does, with more
parentheses open further out, by `Targeting.Balance.after_add`. Where an operator is due, neither an
operand may stand nor the first token of an expression. -/
theorem IsWhole.after_eq {tokens : List Token} (h : IsWhole tokens) {operand : Token}
    (hoperand : operand.isOperand = true) (balance : Balance) :
    balance.after tokens = balance.next operand := by
  obtain ⟨opened, complete⟩ := balance
  cases complete with
  | false =>
    have hnext : Balance.next ⟨opened, false⟩ operand = some ⟨opened, true⟩ := by
      cases operand <;> first | rfl | cases hoperand
    have hafter := Balance.after_add h opened
    rw [Nat.zero_add] at hafter
    rw [hnext]
    exact hafter
  | true =>
    have hnext : Balance.next ⟨opened, true⟩ operand = none := by
      cases operand <;> first | rfl | cases hoperand
    rw [hnext]
    cases tokens with
    | nil => cases h
    | cons token tokens =>
      -- a token that may stand at the beginning may not stand behind an expression
      rw [IsWhole, Balance.after_cons] at h
      obtain ⟨inner, hinner, -⟩ := Option.bind_eq_some_iff.1 h
      rw [Balance.after_cons, Option.bind_eq_none_iff]
      cases token with
      | closing | operator => cases hinner
      | opening | text | truth | «variable» => intro _ hmore; cases hmore

/-- Two expressions with an operator between them form an expression. -/
lemma IsWhole.operator {left right : List Token} (hleft : IsWhole left) (hright : IsWhole right)
    (op : Operator) : IsWhole (left ++ .operator op :: right) := by
  rw [IsWhole, Balance.after_append, show Balance.after {} left = _ from hleft]
  exact hright

/-- Expressions with an operator between neighbours form an expression. -/
lemma IsWhole.chain {α : Type} {tokens : α → List Token} {left : List Token} (hleft : IsWhole left)
    (op : Operator) {rest : List α} (hrest : ∀ a ∈ rest, IsWhole (tokens a)) :
    IsWhole (left ++ rest.flatMap fun a => .operator op :: tokens a) := by
  induction rest generalizing left with
  | nil => rwa [List.flatMap_nil, List.append_nil]
  | cons a rest ih =>
    obtain ⟨ha, hothers⟩ := List.forall_mem_cons.1 hrest
    rw [List.flatMap_cons, ← List.append_assoc]
    exact ih (hleft.operator ha op) hothers

/-! ## The check -/

/-- What the check keeps track of besides columns. -/
def Outlook.balance (outlook : Outlook) : Balance := ⟨outlook.opened.length, outlook.complete⟩

/-- The check of one token leaves its balance. -/
lemma Outlook.toOption_next (outlook : Outlook) (token : Located Token) :
    (outlook.next token).toOption.map balance = outlook.balance.next token.value := by
  obtain ⟨opened, complete, last⟩ := outlook
  obtain ⟨value, column⟩ := token
  cases value with
  | closing => cases opened <;> cases complete <;> rfl
  | opening | operator | text | truth | «variable» => cases complete <;> rfl

/-- The check of tokens leaves their balance. -/
lemma Outlook.toOption_foldlM_next (outlook : Outlook) (tokens : List (Located Token)) :
    (tokens.foldlM next outlook).toOption.map balance =
      outlook.balance.after (tokens.map (·.value)) := by
  induction tokens generalizing outlook with
  | nil => rfl
  | cons token tokens ih =>
    have hnext := outlook.toOption_next token
    rw [List.foldlM_cons, List.map_cons, Balance.after_cons, ← hnext]
    cases outlook.next token with
    | error error => rfl
    | ok following => exact ih following

/-- The end of the check lets pass what has no open parenthesis and ends with an expression. -/
lemma Outlook.finish_eq_ok_iff {outlook : Outlook} :
    outlook.finish = .ok () ↔ outlook.balance = ⟨0, true⟩ := by
  obtain ⟨opened, complete, last⟩ := outlook
  cases opened <;> cases complete <;> simp [finish, balance]

/-- **The check depends on no column.** It lets tokens pass exactly when they form an expression. -/
theorem checkTokens_eq_ok_iff_isWhole {tokens : List (Located Token)} :
    checkTokens tokens = .ok () ↔ IsWhole (tokens.map (·.value)) := by
  cases tokens with
  | nil => exact iff_of_false (fun h => nomatch h) (fun h => nomatch h)
  | cons token tokens =>
    have hfold := Outlook.toOption_foldlM_next {} (token :: tokens)
    change ((token :: tokens).foldlM Outlook.next {} >>= Outlook.finish) = .ok () ↔ _
    change _ = Balance.after {} _ at hfold
    rw [bind_eq_ok_iff, IsWhole, ← hfold, Option.map_eq_some_iff]
    simp only [toOption_eq_some_iff, Outlook.finish_eq_ok_iff]

/-! ## The grammar without precedence -/

/-- Whether tokens are derived by the grammar without precedence: they are an operand, an expression
between two parentheses, or two expressions with an operator between them. -/
inductive IsExpression : List Token → Prop
  | operand {token : Token} : token.isOperand = true → IsExpression [token]
  | group {inner : List Token} : IsExpression inner →
      IsExpression (.opening :: (inner ++ [.closing]))
  | binary {left right : List Token} (op : Operator) : IsExpression left → IsExpression right →
      IsExpression (left ++ .operator op :: right)

/-- An operand is an expression. -/
lemma IsWhole.of_isOperand {token : Token} (h : token.isOperand = true) : IsWhole [token] := by
  cases token <;> first | rfl | cases h

/-- An expression between two parentheses is an expression: inside, one more parenthesis is open. -/
lemma IsWhole.group {inner : List Token} (h : IsWhole inner) :
    IsWhole (.opening :: (inner ++ [.closing])) := by
  have hinner : Balance.after ⟨1, false⟩ inner = some ⟨1, true⟩ := Balance.after_add h 1
  have hopening : Balance.next {} .opening = some ⟨1, false⟩ := rfl
  rw [IsWhole, Balance.after_cons, hopening, Option.bind_some, Balance.after_append, hinner]
  rfl

/-- What the grammar without precedence derives balances. -/
lemma IsExpression.isWhole {tokens : List Token} (h : IsExpression tokens) : IsWhole tokens := by
  induction h with
  | operand htoken => exact .of_isOperand htoken
  | group _ ih => exact ih.group
  | binary op _ _ ihleft ihright => exact ihleft.operator ihright op

/-- The tokens of every tree are derived by the grammar without precedence, as the tree says. -/
lemma Expression.isExpression (e : Expression) : IsExpression (e.tokens.map (·.value)) := by
  induction e with
  | atom a column =>
    have hoperand : a.token.isOperand = true := by cases a <;> rfl
    exact .operand hoperand
  | group opening inner closing ih => simpa [tokens] using ih.group
  | binary op column left right ihleft ihright => simpa [tokens] using ihleft.binary op ihright

/-- **The check accepts exactly the expressions.** Tokens pass the check exactly when they are
derived from operands by parentheses and operators.

**Proof sketch.** The tokens that pass are those of a tree with precedence
(`checkTokens_eq_ok_iff`), and this is one of the trees without. Conversely each production keeps
what balances balanced, whichever tree is meant. -/
theorem checkTokens_eq_ok_iff_isExpression {tokens : List (Located Token)} :
    checkTokens tokens = .ok () ↔ IsExpression (tokens.map (·.value)) := by
  constructor
  · intro h
    obtain ⟨tree, htree⟩ := checkTokens_eq_ok_iff.1 h
    rw [← htree.fits.1]
    exact tree.isExpression
  · intro h
    exact checkTokens_eq_ok_iff_isWhole.2 h.isWhole

/-! ## Rules by themselves -/

/-- A lexeme as a token, where a word is an operand whatever it names. -/
def Lexeme.asToken : Lexeme → Token
  | word text | quoted text => .text text
  | operator op => .operator op
  | opening => .opening
  | closing => .closing

/-- The check of a rule by itself, in which words are operands. -/
def checkRule (rule : String) : Except RuleError Unit := do
  checkTokens ((← lexemesOf rule).map fun lexeme => ⟨lexeme.value.asToken, lexeme.column⟩)

/-- Whether a rule is well formed: it can be cut into lexemes, and these form an expression. -/
def IsWellFormed (rule : String) : Prop := checkRule rule = .ok ()

/-- A rule is well formed exactly when the check finds no fault. -/
lemma isWellFormed_iff_isOk {rule : String} :
    IsWellFormed rule ↔ (checkRule rule).isOk = true := by
  rw [IsWellFormed]
  cases checkRule rule with
  | error fault => exact iff_of_false (fun h => nomatch h) (fun h => nomatch h)
  | ok done => exact iff_of_true rfl rfl

instance : DecidablePred IsWellFormed := fun _ => decidable_of_iff _ isWellFormed_iff_isOk.symm

/-- A rule is well formed exactly when the lexemes that it spells form an expression. -/
theorem Spells.isWellFormed_iff {rule : String} {lexemes : List Lexeme}
    (h : Spells rule.toList lexemes) :
    IsWellFormed rule ↔ IsWhole (lexemes.map Lexeme.asToken) := by
  obtain ⟨located, hlocated, rfl⟩ := spells_iff.1 h
  rw [IsWellFormed, checkRule, hlocated]
  change checkTokens _ = .ok () ↔ _
  rw [checkTokens_eq_ok_iff_isWhole, List.map_map, List.map_map]
  rfl

/-- A well-formed rule spells lexemes that form an expression. -/
lemma IsWellFormed.exists_spells {rule : String} (h : IsWellFormed rule) :
    ∃ lexemes, Spells rule.toList lexemes ∧ IsWhole (lexemes.map Lexeme.asToken) := by
  obtain ⟨located, hlocated, -⟩ := bind_eq_ok_iff.1 h
  have hspells : Spells rule.toList (located.map (·.value)) := spells_iff.2 ⟨located, hlocated, rfl⟩
  exact ⟨_, hspells, hspells.isWellFormed_iff.1 h⟩

/-! ## Texts that act as tokens -/

/-- Whether a text has lexemes, and these act on any balance as certain tokens do. -/
def ActsAs (text : List Char) (tokens : List Token) : Prop :=
  ∃ lexemes, Spells text lexemes ∧
    ∀ balance : Balance, balance.after (lexemes.map Lexeme.asToken) = balance.after tokens

namespace ActsAs

variable {rest : List Char} {tokens : List Token}

/-- The empty text acts as no token. -/
lemma nil : ActsAs [] [] := ⟨[], .nil, fun _ => rfl⟩

/-- An item in front of a text acts as its lexeme, if the text lets a word end. -/
lemma cons (item : Item) (hitem : item.WellFormed) (h : ActsAs rest tokens)
    (hword : ∀ glyphs, item = .word glyphs → EndsWord rest) :
    ActsAs (item.source ++ rest) (item.lexeme?.toList.map Lexeme.asToken ++ tokens) := by
  obtain ⟨lexemes, hspells, hbalance⟩ := h
  refine ⟨_, hspells.cons item hitem hword, fun balance => ?_⟩
  rw [List.map_append, Balance.after_append, Balance.after_append]
  simp only [hbalance]

/-- An operator in front of a text. -/
lemma operator (op : Operator) (h : ActsAs rest tokens) :
    ActsAs (op.symbol.toList ++ rest) (.operator op :: tokens) := by
  rw [Operator.symbol, String.toList_ofList]
  exact h.cons (.operator op) trivial (by simp)

/-- A quoted text in front of a text acts as any operand. -/
lemma quoted {glyphs : List Glyph} (hglyphs : ∀ g ∈ glyphs, g.InQuotes) (h : ActsAs rest tokens)
    {token : Token} (htoken : token.isOperand = true) :
    ActsAs ((Item.quoted glyphs).source ++ rest) (token :: tokens) := by
  obtain ⟨lexemes, hspells, hbalance⟩ := h.cons (.quoted glyphs) hglyphs (by simp)
  have hwhole : IsWhole [.text (glyphText glyphs)] := rfl
  refine ⟨lexemes, hspells, fun balance => ?_⟩
  rw [hbalance, Balance.after_cons, ← hwhole.after_eq htoken, ← Balance.after_append]
  rfl

/-- A well-formed rule in front of a text that lets a word end acts as any operand. -/
theorem operand {rule : String} (hrule : IsWellFormed rule) (h : ActsAs rest tokens)
    (hends : EndsWord rest) {token : Token} (htoken : token.isOperand = true) :
    ActsAs (rule.toList ++ rest) (token :: tokens) := by
  obtain ⟨lexemes, hspells, hwhole⟩ := hrule.exists_spells
  obtain ⟨others, hothers, hbalance⟩ := h
  refine ⟨lexemes ++ others, hspells.append hothers hends, fun balance => ?_⟩
  rw [List.map_append, Balance.after_append, hwhole.after_eq htoken, Balance.after_cons]
  simp only [hbalance]

/-- A text is a well-formed rule exactly when the tokens that it acts as form an expression. -/
lemma isWellFormed_iff {rule : String} (h : ActsAs rule.toList tokens) :
    IsWellFormed rule ↔ IsWhole tokens := by
  obtain ⟨lexemes, hspells, hbalance⟩ := h
  rw [hspells.isWellFormed_iff, IsWhole, hbalance]
  rfl

end ActsAs

end Targeting
