import Targeting.Proofs.Evaluation.ReferenceGraph

/-!
# Where an evaluation is at fault

An evaluation fails in one rule: the rule itself, or that of an audience to which it comes by
references. What is wrong there is handed back through the references as it is. So the column of an
error is one of the rule in which the evaluation fails, while the error does not tell this rule.

## Main definitions

* `Targeting.Fault.isOfOperator` — the faults that arise while an operator is applied.
* `Targeting.Engine.Enters` — from a rule on a trail to a rule that it refers to.
* `Targeting.Engine.FailsAt` — the errors of a rule that are not those of its references.

## Main results

* `Targeting.Engine.FailsAt.column` — a rule's own errors have columns of the rule.
* `Targeting.Engine.exists_failsAt` — the rule in which an evaluation fails.
* `Targeting.Engine.outcome_eq_error_column` — the column of an error.
-/

set_option autoImplicit false

namespace Targeting

open Relation

/-- Whether a fault arises while an operator is applied: the operator lacks operands or does not
apply to them, or the reference that it is comes to nothing. -/
def Fault.isOfOperator : Fault → Bool
  | missingOperand _ | unsupportedComparison _ _ _ => true
  | unknownAudience _ | cyclicReference _ | depthExceeded _ => true
  | nonBooleanResult _ | unterminatedLiteral | invalidEscape | unexpectedQuote => false
  | unknownOperator _ | unmatchedClosing | unclosedOpening | expectedOperator => false
  | unexpectedOperator | expectedOperand | unknownVariable _ | emptyExpression => false

/-- No operator is applied while a rule is read. -/
lemma Fault.isOfOperator_eq_false {fault : Fault} (h : fault.origin = .reading) :
    fault.isOfOperator = false := by
  cases fault <;> first | rfl | cases h

/-! ## The columns of a tree -/

namespace Expression

/-- The operators of a tree are among its tokens. -/
lemma operator_mem_tokens {e : Expression} {op : Operator} {column : Nat}
    {left right : Expression} (h : binary op column left right ∈ e.nodes) :
    ⟨.operator op, column⟩ ∈ e.tokens := by
  induction e with
  | atom a place => simp [nodes] at h
  | group opening inner closing ih =>
    have hinner : binary op column left right ∈ inner.nodes := by simpa [nodes] using h
    simp [tokens, ih hinner]
  | binary op' column' left' right' ihl ihr =>
    simp only [nodes, List.mem_append, List.mem_singleton] at h
    rw [tokens, List.mem_append, List.mem_cons]
    rcases h with (hleft | hright) | heq
    · exact .inl (ihl hleft)
    · exact .inr (.inr (ihr hright))
    · obtain ⟨rfl, rfl, -, -⟩ := Expression.binary.inj heq
      exact .inr (.inl rfl)

/-- The column of a tree is that of one of its tokens. -/
lemma exists_mem_tokens_column (e : Expression) : ∃ token ∈ e.tokens, token.column = e.column := by
  induction e with
  | atom a column => exact ⟨_, List.mem_singleton_self _, rfl⟩
  | group opening inner closing ih =>
    obtain ⟨token, htoken, hcolumn⟩ := ih
    exact ⟨token, by simp [tokens, htoken], hcolumn⟩
  | binary op column left right _ _ => exact ⟨⟨.operator op, column⟩, by simp [tokens], rfl⟩

/-- The tree of a rule has the tokens of the rule, which stand at characters of it. -/
lemma tokens_of_ofRule {snapshot : Snapshot} {policy : FieldPolicy} {rule : String}
    {tree : Expression} (h : ofRule snapshot policy rule = .ok tree) :
    tokensOf snapshot policy rule = .ok tree.tokens ∧
      ∀ token ∈ tree.tokens, IsColumn rule.length token.column := by
  obtain ⟨tokens, htokens, -, hderives⟩ := ofRule_eq_ok_iff.1 h
  obtain rfl := hderives.fits.1
  exact ⟨htokens, (tokensOf_ensures snapshot policy rule).of_eq_ok htokens⟩

/-- An operator in the tree of a rule stands at a character of the rule, as one of its tokens. -/
lemma operator_of_ofRule {snapshot : Snapshot} {policy : FieldPolicy} {rule : String}
    {tree : Expression} {op : Operator} {column : Nat} {left right : Expression}
    (h : ofRule snapshot policy rule = .ok tree) (hmem : binary op column left right ∈ tree.nodes) :
    IsColumn (max 1 rule.length) column ∧
      ∃ tokens op, tokensOf snapshot policy rule = .ok tokens ∧
        ⟨.operator op, column⟩ ∈ tokens := by
  obtain ⟨htokens, hcolumns⟩ := tokens_of_ofRule h
  have htoken := operator_mem_tokens hmem
  exact ⟨(hcolumns _ htoken).mono (le_max_right _ _), tree.tokens, op, htokens, htoken⟩

end Expression

namespace Engine

/-! ## The rule at fault -/

/-- The step from a rule on a trail to the rule of an audience that it refers to, on the longer
trail, if neither a cycle nor the limit stops the reference. -/
inductive Enters (engine : Engine) (snapshot : Snapshot) : Trail × String → Trail × String → Prop
  | reference {trail : Trail} {rule name inner : String} :
    snapshot.RuleRefers engine.policy rule name → engine.entry snapshot trail name = .ok inner →
      Enters engine snapshot (trail, rule) (trail.enter name, inner)

/-- The errors of a rule on a trail that are its own and not those of a rule that it refers to: the
rule cannot be read, its tree fails by itself, or a reference in it is refused. -/
inductive FailsAt (engine : Engine) (snapshot : Snapshot) (trail : Trail) (rule : String) :
    RuleError → Prop
  | reading {error : RuleError} : Program.ofRule snapshot engine.policy rule = .error error →
      FailsAt engine snapshot trail rule error
  | tree {tree : Expression} {error : RuleError} :
    Expression.ofRule snapshot engine.policy rule = .ok tree →
      tree.Fails (engine.aroundTree snapshot false trail) error →
      FailsAt engine snapshot trail rule error
  | refused {tree : Expression} {name : String} {column : Nat} {fault : Fault} :
    Expression.ofRule snapshot engine.policy rule = .ok tree → tree.RefersAt snapshot name column →
      engine.entry snapshot trail name = .error fault →
      FailsAt engine snapshot trail rule ⟨fault, column⟩

section

variable {engine : Engine} {snapshot : Snapshot} {trail : Trail} {rule : String} {error : RuleError}

/-- An error of a rule's own has the column of one of its characters, or is in the first column if
it has none; if an operator is at fault, the column is that of the operator.

**Proof sketch.** By cases on how the rule fails. An error of reading has a column of the rule by
`Targeting.Program.ofRule_fails` and is no operator's. An error of an operator in the tree, or of a
reference that is refused, has the column of its token. A value that is no condition has that of the
first token. -/
theorem FailsAt.column (h : engine.FailsAt snapshot trail rule error) :
    IsColumn (max 1 rule.length) error.column ∧
      (error.fault.isOfOperator = true → ∃ tokens op,
        tokensOf snapshot engine.policy rule = .ok tokens ∧
          ⟨.operator op, error.column⟩ ∈ tokens) := by
  cases h with
  | reading hread =>
    obtain ⟨horigin, hcolumn⟩ := Program.ofRule_fails snapshot engine.policy rule error hread
    refine ⟨hcolumn, fun hfault => ?_⟩
    rw [Fault.isOfOperator_eq_false horigin] at hfault
    cases hfault
  | tree htree hfails =>
    cases hfails with
    | operator hmem =>
      obtain ⟨hcolumn, htoken⟩ := Expression.operator_of_ofRule htree hmem
      exact ⟨hcolumn, fun _ => htoken⟩
    | result =>
      obtain ⟨token, htoken, hcolumn⟩ := Expression.exists_mem_tokens_column _
      have hcolumns := (Expression.tokens_of_ofRule htree).2 token htoken
      rw [hcolumn] at hcolumns
      exact ⟨hcolumns.mono (le_max_right _ _), fun hfault => nomatch hfault⟩
  | refused htree hrefers =>
    obtain ⟨op, left, right, l, r, hmem, -⟩ := hrefers
    obtain ⟨hcolumn, htoken⟩ := Expression.operator_of_ofRule htree hmem
    exact ⟨hcolumn, fun _ => htoken⟩

/-- A rule that fails has an error of its own, or hands back that of a rule it refers to.

**Proof sketch.** The rule cannot be read, or its tree fails by itself, or a reference of the tree
does, by `Targeting.Expression.outcome_eq_error`. Such a reference is refused, which is an error of
this rule, or the rule behind it fails with the same error. -/
lemma failsAt_or_enters (h : engine.outcomeOn snapshot false trail rule = .error error) :
    engine.FailsAt snapshot trail rule error ∨
      ∃ name inner, snapshot.RuleRefers engine.policy rule name ∧
        engine.entry snapshot trail name = .ok inner ∧
        engine.outcomeOn snapshot false (trail.enter name) inner = .error error := by
  rw [outcomeOn_eq_bind] at h
  rcases bind_eq_error_iff.1 h with hread | ⟨tree, htree, houtcome⟩
  · refine .inl (.reading ?_)
    rw [Program.ofRule_eq_map, hread]
    rfl
  rcases Expression.outcome_eq_error houtcome with hfails | ⟨name, column, hrefers, hrefer⟩
  · exact .inl (.tree htree hfails)
  · change engine.follow snapshot false trail name column = .error error at hrefer
    rw [← refer_eq_follow, refer_eq_bind] at hrefer
    rcases bind_eq_error_iff.1 hrefer with hentry | ⟨inner, hentry, hinner⟩
    · obtain ⟨fault, hfault, rfl⟩ := mapError_eq_error_iff.1 hentry
      exact .inl (.refused htree hrefers hfault)
    · exact .inr ⟨name, inner, ⟨tree, htree, hrefers.refersTo⟩, mapError_eq_ok_iff.1 hentry, hinner⟩

/-- An evaluation that fails comes by references to a rule that has the error as its own.

**Proof sketch.** Induction on the number of audiences that are not on the trail. A reference that
is entered adds one to the trail, and the rule hands back what the reference comes to. -/
theorem exists_failsAt (h : engine.outcomeOn snapshot false trail rule = .error error) :
    ∃ last source, ReflTransGen (engine.Enters snapshot) (trail, rule) (last, source) ∧
      engine.outcomeOn snapshot false last source = .error error ∧
      engine.FailsAt snapshot last source error := by
  induction hn : (snapshot.unvisited trail.chain).length using Nat.strongRecOn
    generalizing trail rule with
  | ind n ih =>
    rcases failsAt_or_enters h with hfails | ⟨name, inner, hrefers, hentry, hinner⟩
    · exact ⟨trail, rule, .refl, h, hfails⟩
    · obtain ⟨hcyclic, -, hrule⟩ := entry_eq_ok_iff.1 hentry
      have hfewer := Snapshot.length_unvisited_cons_lt hrule hcyclic
      obtain ⟨last, source, hreach, hlast⟩ := ih _ (hn ▸ hfewer) hinner rfl
      exact ⟨last, source, .head (.reference hrefers hentry) hreach, hlast⟩

end

/-- **An error has a column of the rule in which the evaluation fails.** A rule that fails comes by
references to a rule that has the error as its own, and only to itself if it refers to no audience.
The column of the error is that of a character of this rule, or the first if it has none; if an
operator is at fault, it is the column of this operator.

**Proof sketch.** The evaluation comes to a rule that has the error as its own, by
`Targeting.Engine.exists_failsAt`, and such an error has a column of that rule, by
`Targeting.Engine.FailsAt.column`. Without references nothing is entered, so the rule is the first
one. -/
theorem outcome_eq_error_column {engine : Engine} {snapshot : Snapshot} {rule : String}
    {error : RuleError} (h : engine.outcome snapshot rule = .error error) :
    ∃ trail source,
      ReflTransGen (engine.Enters snapshot) (.root snapshot.audience, rule) (trail, source) ∧
      engine.outcomeOn snapshot false trail source = .error error ∧
      engine.FailsAt snapshot trail source error ∧
      ((∀ name, ¬ snapshot.RuleRefers engine.policy rule name) → source = rule) ∧
      1 ≤ error.column ∧ error.column ≤ max 1 source.length ∧
      (error.fault.isOfOperator = true → ∃ tokens op,
        tokensOf snapshot engine.policy source = .ok tokens ∧
          ⟨.operator op, error.column⟩ ∈ tokens) := by
  obtain ⟨trail, source, hreach, houtcome, hfails⟩ := exists_failsAt (map_eq_error_iff.1 h)
  obtain ⟨⟨hone, hle⟩, hoperator⟩ := hfails.column
  refine ⟨trail, source, hreach, houtcome, hfails, fun hnone => ?_, hone, hle, hoperator⟩
  rcases hreach.cases_head with heq | ⟨_, ⟨hrefers, -⟩, -⟩
  · exact (congrArg Prod.snd heq).symm
  · exact absurd hrefers (hnone _)

/-- The second comparison of a rule that is referred to refers to an audience without a rule. -/
theorem outcome_eq_error_column_unregistered :
    let snapshot : Snapshot := { rules := .ofList [("m", "Role == 'x' || Audience == 'n'")] }
    Engine.outcome {} snapshot "Audience == 'm'" = .error ⟨.unknownAudience "n", 25⟩ ∧
      ∃ trail source,
        ReflTransGen (Engine.Enters {} snapshot) (.root "", "Audience == 'm'") (trail, source) ∧
        Engine.FailsAt {} snapshot trail source ⟨.unknownAudience "n", 25⟩ ∧
        25 ≤ max 1 source.length ∧
        ∃ tokens op, tokensOf snapshot .lenient source = .ok tokens ∧
          ⟨.operator op, 25⟩ ∈ tokens := by
  intro snapshot
  have herror : Engine.outcome {} snapshot "Audience == 'm'" =
      .error ⟨.unknownAudience "n", 25⟩ := by
    unfold snapshot
    decide +kernel
  obtain ⟨trail, source, hreach, -, hfails, -, -, hle, hoperator⟩ := outcome_eq_error_column herror
  exact ⟨herror, trail, source, hreach, hfails, hle, hoperator rfl⟩

/-- The column of an error may lie behind the end of the rule that is evaluated, where it has no
operator: it is the column of an operator in the rule of the audience that the rule refers to. -/
theorem outcome_eq_error_elsewhere :
    let snapshot : Snapshot := { rules := .ofList [("X", "Profile == 'Guest' && Profile")] }
    let rule := "Audience == 'X'"
    let error : RuleError := ⟨.unsupportedComparison .and "false" "Profile=''", 20⟩
    Engine.outcome {} snapshot rule = .error error ∧
      error.fault.isOfOperator = true ∧ max 1 rule.length < error.column ∧
      ∀ tokens op, tokensOf snapshot .lenient rule = .ok tokens →
        ⟨.operator op, error.column⟩ ∉ tokens := by
  intro snapshot rule error
  have herror : Engine.outcome {} snapshot rule = .error error := by
    unfold snapshot rule error
    decide +kernel
  have hlength : max 1 rule.length < error.column := by decide
  refine ⟨herror, rfl, hlength, fun tokens op htokens hmem => ?_⟩
  have hcolumn := (tokensOf_ensures snapshot .lenient rule).of_eq_ok htokens _ hmem
  exact hlength.not_ge (hcolumn.2.trans (le_max_right _ _))

end Engine

end Targeting
