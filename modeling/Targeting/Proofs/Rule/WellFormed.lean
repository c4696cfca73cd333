import Targeting.Proofs.Rule.ExpressionReader

/-!
# The check of a rule

The check of a rule goes through the tokens once and keeps a stack of open parentheses. It lets pass
exactly the tokens that the grammar derives, and so exactly those of any tree at all: however the
operands and operators of a tree are nested, its tokens are read as another tree that the grammar
has.

## Main results

* `Targeting.Expression.foldlM_next_tokens` — the check goes through the tokens of every tree.
* `Targeting.checkTokens_eq_ok_iff` — the check lets pass exactly what the grammar derives.
* `Targeting.Expression.exists_derives_tokens` — the tokens of every tree are derived.
-/

set_option autoImplicit false

namespace Targeting

namespace Outlook

/-- An operand completes an expression. -/
lemma next_atom (opened : List Nat) (last : Nat) (a : Atom) (column : Nat) :
    next ⟨opened, false, last⟩ ⟨a.token, column⟩ = .ok ⟨opened, true, column⟩ := by
  cases a <;> rfl

end Outlook

namespace Expression

/-- An expression has at least one token. -/
lemma tokens_ne_nil (e : Expression) : e.tokens ≠ [] := by
  cases e <;> simp [tokens]

/-- Where an expression may begin, the check goes through its tokens, after which an expression is
complete and no other parentheses are open.

**Proof sketch.** Induction on the expression, for all open parentheses and every last column. -/
theorem foldlM_next_tokens (e : Expression) (opened : List Nat) (last : Nat) :
    ∃ column, e.tokens.foldlM Outlook.next ⟨opened, false, last⟩ = .ok ⟨opened, true, column⟩ := by
  induction e generalizing opened last with
  | atom a column =>
    refine ⟨column, ?_⟩
    rw [tokens, List.foldlM_cons, Outlook.next_atom]
    rfl
  | group opening inner closing ih =>
    obtain ⟨column, hinner⟩ := ih (opening :: opened) opening
    refine ⟨closing, ?_⟩
    change List.foldlM Outlook.next ⟨opening :: opened, false, opening⟩
      (inner.tokens ++ [⟨.closing, closing⟩]) = _
    rw [List.foldlM_append, hinner]
    rfl
  | binary op column left right ihl ihr =>
    obtain ⟨_, hleft⟩ := ihl opened last
    obtain ⟨ending, hright⟩ := ihr opened column
    refine ⟨ending, ?_⟩
    rw [tokens, List.foldlM_append, hleft]
    exact hright

/-- The check lets the tokens of every expression pass. -/
lemma checkTokens_tokens (e : Expression) : checkTokens e.tokens = .ok () := by
  obtain ⟨column, h⟩ := e.foldlM_next_tokens [] 1
  have hcheck : (e.tokens.foldlM Outlook.next {} >>= Outlook.finish) = .ok () :=
    bind_eq_ok_iff.2 ⟨_, h, rfl⟩
  rw [checkTokens, if_neg (by simpa using e.tokens_ne_nil)]
  exact hcheck

end Expression

/-- **The check is the grammar.** The check lets tokens pass exactly when the grammar derives
them. -/
theorem checkTokens_eq_ok_iff {tokens : List (Located Token)} :
    checkTokens tokens = .ok () ↔ ∃ tree, Derives .disjunction tokens tree := by
  constructor
  · intro h
    obtain ⟨tree, htree⟩ := Option.isSome_iff_exists.1 (Expression.isSome_ofTokens? h)
    exact ⟨tree, Expression.ofTokens?_eq_some_iff.1 htree⟩
  · rintro ⟨tree, htree⟩
    rw [← htree.fits.1]
    exact tree.checkTokens_tokens

/-- The tokens of every expression are derived, be it by another tree: precedence decides how they
are nested. -/
theorem Expression.exists_derives_tokens (e : Expression) :
    ∃ tree, Derives .disjunction e.tokens tree :=
  checkTokens_eq_ok_iff.1 e.checkTokens_tokens

end Targeting
