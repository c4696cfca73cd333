import Mathlib.Logic.ExistsUnique
import Targeting.Proofs.Rule.ExpressionReader

/-!
# Reverse Polish order

The stack of waiting operators brings the tokens of an expression into the order in which a walk
over its tree leaves the nodes.

## Main results

* `Targeting.polishFrom_tokens` — the tokens of an expression come out in the order of the tree,
  whatever waits on the stack below its level and whatever follows that lets it end.
* `Targeting.reversePolish_eq_postOrder` — a list of tokens that passes the check has one tree, and
  comes out in the order of that tree.
-/

set_option autoImplicit false

namespace Targeting

/-- Whether the operator on top of the stack, if there is one, binds less tightly than a level. -/
def Waiting.Below (level : Nat) : List Waiting → Prop
  | .operator op _ :: _ => op.precedence < level
  | _ => True

namespace Waiting

/-- What is below a level is below each higher one. -/
lemma Below.mono {level higher : Nat} {waiting : List Waiting} (h : Below level waiting)
    (hle : level ≤ higher) : Below higher waiting := by
  match waiting with
  | [] | .opening :: _ => trivial
  | .operator _ _ :: _ => exact Nat.lt_of_lt_of_le h hle

/-- On a stack below the level of an operator nothing binds as tightly as the operator. -/
lemma Below.bindsAtLeast_head {op : Operator} {top : Waiting} {waiting : List Waiting}
    (h : Below op.precedence (top :: waiting)) : top.bindsAtLeast op = false := by
  cases top with
  | opening => rfl
  | operator op' column => exact decide_eq_false (Nat.not_le.2 h)

end Waiting

/-- An operator that finds a stack below its level only waits. -/
lemma polishFrom_operator_of_below {op : Operator} {waiting : List Waiting}
    (h : Waiting.Below op.precedence waiting) (column : Nat) (rest : List (Located Token)) :
    polishFrom waiting (⟨.operator op, column⟩ :: rest) =
      polishFrom (.operator op column :: waiting) rest := by
  cases waiting with
  | nil => rfl
  | cons top waiting =>
    have htop := h.bindsAtLeast_head
    simp only [polishFrom, List.takeWhile_cons, List.dropWhile_cons, htop, Bool.false_eq_true,
      ↓reduceIte, List.filterMap_nil, List.nil_append]

/-- An operator leaves the stack as soon as its right operand ends. -/
lemma polishFrom_of_endsBefore {op : Operator} {rest : List (Located Token)}
    (h : EndsBefore op.precedence rest) (column : Nat) (waiting : List Waiting) :
    polishFrom (.operator op column :: waiting) rest =
      ⟨.operator op, column⟩ :: polishFrom waiting rest := by
  match rest with
  | [] | ⟨.closing, _⟩ :: _ => rfl
  | ⟨.operator next, _⟩ :: _ =>
    have htop : Waiting.bindsAtLeast next (.operator op column) = true := decide_eq_true h
    simp only [polishFrom, List.takeWhile_cons, List.dropWhile_cons, htop, ↓reduceIte,
      List.filterMap_cons, Waiting.token?, List.cons_append]

/-- The tokens of an expression of a level come out in the order of the tree, if what waits is below
the level and what follows lets the expression end.

**Proof sketch.** Induction on the expression. An operand comes out at once. In a group the opening
parenthesis on top of the stack is below every level, and the closing one removes it. The left
operand of an operator is out when the operator comes, which finds the stack below its level; the
operator leaves the stack as soon as the right operand ends (`polishFrom_of_endsBefore`). -/
theorem polishFrom_tokens {e : Expression} {level : Nat} (hfits : e.FitsAt level)
    (waiting : List Waiting) (hbelow : Waiting.Below level waiting) (rest : List (Located Token))
    (hends : EndsBefore level rest) :
    polishFrom waiting (e.tokens ++ rest) = e.postOrder ++ polishFrom waiting rest := by
  induction e generalizing level waiting rest with
  | atom a column => cases a <;> rfl
  | group opening inner closing ih =>
    have hinner := ih hfits (.opening :: waiting) trivial (⟨.closing, closing⟩ :: rest) trivial
    calc polishFrom waiting ((Expression.group opening inner closing).tokens ++ rest)
        = polishFrom (.opening :: waiting) (inner.tokens ++ ⟨.closing, closing⟩ :: rest) := by
          simp only [Expression.tokens, List.cons_append, List.append_assoc, List.nil_append,
            polishFrom]
      _ = inner.postOrder ++ polishFrom waiting rest := hinner
  | binary op column left right ihl ihr =>
    obtain ⟨hlevel, hleft, hright⟩ := hfits
    have hbelow := hbelow.mono hlevel
    have hends := hends.mono hlevel
    simp only [Expression.tokens, Expression.postOrder, List.append_assoc, List.cons_append,
      List.nil_append]
    rw [ihl hleft waiting hbelow _ (Nat.le_refl _), polishFrom_operator_of_below hbelow,
      ihr hright _ (Nat.lt_succ_self _) rest (hends.mono (Nat.le_succ _)),
      polishFrom_of_endsBefore hends]

/-- The tokens of a whole expression come out in the order of the tree. -/
lemma reversePolish_tokens {e : Expression} (h : e.FitsAt 1) :
    reversePolish e.tokens = e.postOrder := by
  have hpolish := polishFrom_tokens h [] trivial [] trivial
  rw [List.append_nil] at hpolish
  rw [reversePolish, hpolish]
  exact List.append_nil _

/-- **Reverse Polish order is the order of the tree.** A list of tokens that passes the check has
exactly one tree in the grammar. The tokens come out in the order of that tree, without parentheses
and with their columns, and the operators of the tree associate to the left. -/
theorem reversePolish_eq_postOrder {tokens : List (Located Token)}
    (h : checkTokens tokens = .ok ()) :
    (∃! tree, Derives .disjunction tokens tree) ∧
      ∀ tree, Derives .disjunction tokens tree →
        reversePolish tokens = tree.postOrder ∧
          ∀ op column left right, Expression.binary op column left right ∈ tree.nodes →
            op.precedence ≤ left.binding ∧ op.precedence < right.binding := by
  obtain ⟨tree, htree⟩ := Option.isSome_iff_exists.1 (Expression.isSome_ofTokens? h)
  have hderives := Expression.ofTokens?_eq_some_iff.1 htree
  refine ⟨⟨tree, hderives, fun other hother => hderives.unique hother⟩, ?_⟩
  intro other hother
  obtain ⟨rfl, hfits⟩ := hother.fits
  exact ⟨reversePolish_tokens hfits, fun _ _ _ _ hmem => hfits.binding_of_mem_nodes hmem⟩

/-- `('a' || 'b') && 'c' == 'd' || 'e'`, with the columns 1, 2, …: the last disjunction comes out
last. -/
theorem reversePolish_eq_postOrder_mixed :
    checkTokens [⟨.opening, 1⟩, ⟨.text "a", 2⟩, ⟨.operator .or, 3⟩, ⟨.text "b", 4⟩, ⟨.closing, 5⟩,
        ⟨.operator .and, 6⟩, ⟨.text "c", 7⟩, ⟨.operator .equal, 8⟩, ⟨.text "d", 9⟩,
        ⟨.operator .or, 10⟩, ⟨.text "e", 11⟩] = .ok () ∧
      reversePolish [⟨.opening, 1⟩, ⟨.text "a", 2⟩, ⟨.operator .or, 3⟩, ⟨.text "b", 4⟩,
        ⟨.closing, 5⟩, ⟨.operator .and, 6⟩, ⟨.text "c", 7⟩, ⟨.operator .equal, 8⟩, ⟨.text "d", 9⟩,
        ⟨.operator .or, 10⟩, ⟨.text "e", 11⟩] =
        [⟨.text "a", 2⟩, ⟨.text "b", 4⟩, ⟨.operator .or, 3⟩, ⟨.text "c", 7⟩, ⟨.text "d", 9⟩,
          ⟨.operator .equal, 8⟩, ⟨.operator .and, 6⟩, ⟨.text "e", 11⟩, ⟨.operator .or, 10⟩] := by
  refine ⟨rfl, ((reversePolish_eq_postOrder rfl).2
    (.binary .or 10
      (.binary .and 6 (.group 1 (.binary .or 3 (.atom (.text "a") 2) (.atom (.text "b") 4)) 5)
        (.binary .equal 8 (.atom (.text "c") 7) (.atom (.text "d") 9)))
      (.atom (.text "e") 11)) ?_).1⟩
  exact Expression.ofTokens?_eq_some_iff.1 rfl

end Targeting
