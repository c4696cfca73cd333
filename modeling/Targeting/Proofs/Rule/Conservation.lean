import Mathlib.Tactic.Lemma
import Targeting.Rule.Program

/-!
# What the order keeps

The stack of waiting operators takes any list of tokens, whether or not it is an expression. A
closing parenthesis without an opening one empties the stack, and an opening one that is never
closed is left out at the end. In no case is an operand or an operator lost or made twice: at each
token, what comes out and what waits then are together what waited before and the token itself.

## Main definitions

* `Targeting.Token.isParenthesis` — the tokens that do not come out.

## Main results

* `Targeting.exists_polishFrom_cons` — what one token does to the output and to the stack.
* `Targeting.polishFrom_perm` — the tokens come out with those that wait, without parentheses.
* `Targeting.filter_polishFrom` — the operands come out in the order in which they are written.
* `Targeting.reversePolish_keeps_tokens` — both for a list of tokens.
-/

set_option autoImplicit false

namespace Targeting

/-- Whether a token is a parenthesis. -/
def Token.isParenthesis : Token → Bool
  | opening | closing => true
  | text _ | truth _ | .variable _ | operator _ => false

/-! ## The stack -/

namespace Waiting

/-- Those that go first and those that are left are together what waited. -/
lemma filterMap_takeWhile_append_dropWhile (goes : Waiting → Bool) (waiting : List Waiting) :
    (waiting.takeWhile goes).filterMap token? ++ (waiting.dropWhile goes).filterMap token? =
      waiting.filterMap token? := by
  rw [← List.filterMap_append, List.takeWhile_append_dropWhile]

/-- Below the operators on top of the stack is an opening parenthesis, or nothing. To take it away
takes no operator away. -/
lemma filterMap_drop_dropWhile (waiting : List Waiting) :
    ((waiting.dropWhile isOperator).drop 1).filterMap token? =
      (waiting.dropWhile isOperator).filterMap token? := by
  have htop := List.head?_dropWhile_not isOperator waiting
  cases hleft : waiting.dropWhile isOperator with
  | nil => rfl
  | cons top left =>
    rw [hleft] at htop
    cases top with
    | operator op column => simp [isOperator] at htop
    | opening => rfl

/-- No operand waits. -/
lemma filter_isOperand_filterMap (waiting : List Waiting) :
    (waiting.filterMap token?).filter (·.value.isOperand) = [] := by
  refine List.filter_eq_nil_iff.2 fun token htoken => ?_
  obtain ⟨top, -, htop⟩ := List.mem_filterMap.1 htoken
  cases top with
  | operator op column =>
    obtain rfl := Option.some.inj htop
    exact Bool.false_ne_true
  | opening => cases htop

end Waiting

/-! ## One token -/

/-- At each token some tokens come out before the rest is read. With what waits then they are what
waited before and the token, unless it is a parenthesis; and no operand is among them but the token
itself.

**Proof sketch.** By cases on the token. An operand comes out at once and an opening parenthesis
waits. A closing one lets out what waits above the last opening one, and an operator lets out what
binds at least as tightly before it waits itself. What waits holds no operand, so in both cases none
comes out, and taking a front off and dropping it keeps the rest. -/
lemma exists_polishFrom_cons (waiting : List Waiting) (token : Located Token) :
    ∃ out left, (∀ rest, polishFrom waiting (token :: rest) = out ++ polishFrom left rest) ∧
      (out ++ left.filterMap Waiting.token?).Perm
        (waiting.filterMap Waiting.token? ++ [token].filter (!·.value.isParenthesis)) ∧
      out.filter (·.value.isOperand) = [token].filter (·.value.isOperand) := by
  obtain ⟨value, column⟩ := token
  cases value with
  | text | truth | «variable» =>
    exact ⟨[_], waiting, fun _ => rfl, List.perm_append_comm, rfl⟩
  | opening =>
    refine ⟨[], .opening :: waiting, fun _ => rfl, ?_, rfl⟩
    exact .of_eq (List.append_nil _).symm
  | closing =>
    refine ⟨_, _, fun _ => rfl, ?_, Waiting.filter_isOperand_filterMap _⟩
    rw [Waiting.filterMap_drop_dropWhile, Waiting.filterMap_takeWhile_append_dropWhile]
    exact .of_eq (List.append_nil _).symm
  | operator op =>
    refine ⟨_, _, fun _ => rfl, ?_, Waiting.filter_isOperand_filterMap _⟩
    have hkept := Waiting.filterMap_takeWhile_append_dropWhile (Waiting.bindsAtLeast op) waiting
    rw [← hkept, List.append_assoc]
    exact (List.perm_append_singleton _ _).symm.append_left _

/-! ## All tokens -/

/-- What comes out are the tokens and what waits before them, without parentheses, each as often as
it is there.

**Proof sketch.** Induction on the tokens, for all stacks: what a token lets out and what it leaves
waiting are what waited before and the token (`exists_polishFrom_cons`), and what it leaves waiting
comes out with the rest. -/
theorem polishFrom_perm (waiting : List Waiting) (tokens : List (Located Token)) :
    (polishFrom waiting tokens).Perm
      (waiting.filterMap Waiting.token? ++ tokens.filter (!·.value.isParenthesis)) := by
  induction tokens generalizing waiting with
  | nil => exact .of_eq (List.append_nil _).symm
  | cons token rest ih =>
    obtain ⟨out, left, hstep, hkept, -⟩ := exists_polishFrom_cons waiting token
    rw [hstep]
    have hrest := (ih left).append_left out
    calc List.Perm (out ++ polishFrom left rest)
          (out ++ (left.filterMap Waiting.token? ++ rest.filter (!·.value.isParenthesis))) := hrest
      _ = (out ++ left.filterMap Waiting.token?) ++ rest.filter (!·.value.isParenthesis) :=
        (List.append_assoc ..).symm
      List.Perm _ ((waiting.filterMap Waiting.token? ++ [token].filter (!·.value.isParenthesis)) ++
          rest.filter (!·.value.isParenthesis)) := hkept.append_right _
      _ = waiting.filterMap Waiting.token? ++ (token :: rest).filter (!·.value.isParenthesis) := by
        rw [List.append_assoc, ← List.filter_append, List.singleton_append]

/-- The operands come out in the order in which they are written, whatever waits. -/
theorem filter_polishFrom (waiting : List Waiting) (tokens : List (Located Token)) :
    (polishFrom waiting tokens).filter (·.value.isOperand) =
      tokens.filter (·.value.isOperand) := by
  induction tokens generalizing waiting with
  | nil => exact Waiting.filter_isOperand_filterMap waiting
  | cons token rest ih =>
    obtain ⟨out, left, hstep, -, hoperands⟩ := exists_polishFrom_cons waiting token
    rw [hstep, List.filter_append, hoperands, ih, ← List.filter_append, List.singleton_append]

/-- The order has the tokens of the list without its parentheses, each as often. -/
lemma reversePolish_perm (tokens : List (Located Token)) :
    (reversePolish tokens).Perm (tokens.filter (!·.value.isParenthesis)) :=
  polishFrom_perm [] tokens

/-- A token that comes out is one of the list. -/
lemma mem_of_mem_reversePolish {tokens : List (Located Token)} {token : Located Token}
    (h : token ∈ reversePolish tokens) : token ∈ tokens :=
  (List.mem_filter.1 ((reversePolish_perm tokens).mem_iff.1 h)).1

/-- **The order loses and invents nothing.** Of any list of tokens, whether or not it passes the
check, each literal, variable and operator comes out as often as it is in the list and no
parenthesis does, and the literals and variables come out in the order in which they are written. -/
theorem reversePolish_keeps_tokens (tokens : List (Located Token)) :
    (reversePolish tokens).Perm (tokens.filter (!·.value.isParenthesis)) ∧
      (reversePolish tokens).filter (·.value.isOperand) =
        tokens.filter (·.value.isOperand) := by
  constructor
  · exact reversePolish_perm tokens
  · exact filter_polishFrom [] tokens

/-- `&& 'a' || ) == ( 'b'`: the closing parenthesis lets out what waits, and the opening one is left
out at the end. -/
example : reversePolish [⟨.operator .and, 1⟩, ⟨.text "a", 2⟩, ⟨.operator .or, 3⟩, ⟨.closing, 4⟩,
      ⟨.operator .equal, 5⟩, ⟨.opening, 6⟩, ⟨.text "b", 7⟩] =
    [⟨.text "a", 2⟩, ⟨.operator .and, 1⟩, ⟨.operator .or, 3⟩, ⟨.text "b", 7⟩,
      ⟨.operator .equal, 5⟩] := rfl

end Targeting
