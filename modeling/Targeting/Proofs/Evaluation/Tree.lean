import Targeting.Evaluation.Engine
import Targeting.Proofs.Rule.ReversePolish

/-!
# Evaluation along the tree

The value of an expression by recursion on the tree: an operator takes the value of its left
operand, then that of its right operand, and then applies. The stack machine of a program computes
the same, and so does the engine, in which references are followed from tree to tree.

## Main definitions

* `Targeting.Expression.evaluate`, `Targeting.Expression.outcome` — the value of a tree, and its
  truth.
* `Targeting.Expression.StopsWith` — the first failure in the order of evaluation.
* `Targeting.Expression.ofRule`, `Targeting.Expression.program` — the tree of a rule, and the
  program of a tree.
* `Targeting.Engine.follow` — the outcome of a reference by way of trees.

## Main results

* `Targeting.Program.ofRule_eq_map` — the program of a rule is that of its tree.
* `Targeting.Program.outcome_program` — the program of a tree computes the outcome of the tree.
* `Targeting.Expression.evaluate_eq_error_iff` — the error of a tree is that of the first node that
  fails.
* `Targeting.Engine.outcome_eq_tree` — the engine computes the outcome of the tree of a rule.
-/

set_option autoImplicit false

namespace Targeting

/-- The operand that a literal or a variable is in a snapshot. -/
def Atom.operand (snapshot : Snapshot) : Atom → Operand
  | text s => .literal (.text s)
  | truth b => .literal (.truth b)
  | .variable v => .ofVariable snapshot v

namespace Expression

/-! ## Trees -/

/-- The value of an expression and the steps that lead to it. Both operands of an operator are
evaluated, the left one first, and then the operator is applied to them. -/
def evaluate (around : Surroundings) : Expression → Except RuleError (Operand × Trace)
  | atom a _ => .ok (a.operand around.snapshot, [])
  | group _ inner _ => inner.evaluate around
  | binary op column left right => do
    let (leftValue, leftTrace) ← left.evaluate around
    let (rightValue, rightTrace) ← right.evaluate around
    let (result, trace) ← around.operate op leftValue rightValue column
    return (.literal (.truth result), leftTrace ++ rightTrace ++ trace)

/-- The column of the outermost operator, or of the operand. -/
def column : Expression → Nat
  | atom _ column => column
  | group _ inner _ => inner.column
  | binary _ column _ _ => column

/-- The outcome of an expression: its value as a condition. -/
def outcome (around : Surroundings) (e : Expression) : Outcome := do
  let (value, trace) ← e.evaluate around
  match value.truth? with
  | some result => return (result, trace)
  | none => .error ⟨.nonBooleanResult value.render, e.column⟩

/-- Where an operator has a value, both of its operands have values. -/
lemma evaluate_binary_eq_ok {around : Surroundings} {op : Operator} {column : Nat}
    {left right : Expression} {value : Operand × Trace}
    (h : (binary op column left right).evaluate around = .ok value) :
    (∃ l, left.evaluate around = .ok l) ∧ ∃ r, right.evaluate around = .ok r := by
  rw [evaluate, bind_eq_ok_iff] at h
  obtain ⟨l, hleft, h⟩ := h
  rw [bind_eq_ok_iff] at h
  obtain ⟨r, hright, -⟩ := h
  exact ⟨⟨l, hleft⟩, r, hright⟩

/-- Where an expression has a value, all its nodes have values.

**Proof sketch.** Induction on the expression. A node is the expression itself or one of its
operands' nodes, and where an operator has a value both operands have one. -/
lemma exists_evaluate_of_mem_nodes {around : Surroundings} {e : Expression}
    {value : Operand × Trace} (h : e.evaluate around = .ok value) :
    ∀ n ∈ e.nodes, ∃ value, n.evaluate around = .ok value := by
  induction e generalizing value with
  | atom a column =>
    intro n hn
    obtain rfl := List.mem_singleton.1 hn
    exact ⟨value, h⟩
  | group opening inner closing ih =>
    intro n hn
    rcases List.mem_append.1 hn with hn | hn
    · exact ih h n hn
    · obtain rfl := List.mem_singleton.1 hn
      exact ⟨value, h⟩
  | binary op column left right ihl ihr =>
    obtain ⟨⟨l, hleft⟩, r, hright⟩ := evaluate_binary_eq_ok h
    intro n hn
    simp only [nodes, List.mem_append, List.mem_singleton] at hn
    rcases hn with (hn | hn) | rfl
    · exact ihl hleft n hn
    · exact ihr hright n hn
    · exact ⟨value, h⟩

/-- Where an expression has a value, none of its nodes is found to lack one. -/
lemma find?_nodes_eq_none {around : Surroundings} {e : Expression} {value : Operand × Trace}
    (h : e.evaluate around = .ok value) :
    e.nodes.find? (fun n => !(n.evaluate around).isOk) = none := by
  rw [List.find?_eq_none]
  intro n hn
  obtain ⟨value, hvalue⟩ := exists_evaluate_of_mem_nodes h n hn
  rw [hvalue]
  exact Bool.false_ne_true

/-- Whether an expression stops with an error: the first of its nodes without a value, in the order
of evaluation, is an operator whose operands have values, and the operator fails on these with the
error. -/
def StopsWith (e : Expression) (around : Surroundings) (error : RuleError) : Prop :=
  ∃ op column left right l r,
    e.nodes.find? (fun n => !(n.evaluate around).isOk) = some (binary op column left right) ∧
      left.evaluate around = .ok l ∧ right.evaluate around = .ok r ∧
      around.operate op l.1 r.1 column = .error error

/-- An expression that has an error stops with it.

**Proof sketch.** Induction on the expression. The operands of an operator come before it, the left
one first, so an error of the operator itself comes after all of them have values. -/
lemma stopsWith_of_evaluate {around : Surroundings} {e : Expression} {error : RuleError}
    (h : e.evaluate around = .error error) : e.StopsWith around error := by
  induction e with
  | atom a column => cases h
  | group opening inner closing ih =>
    obtain ⟨op, column, left, right, l, r, hfind, hfails⟩ := ih h
    refine ⟨op, column, left, right, l, r, ?_, hfails⟩
    rw [nodes, List.find?_append, hfind, Option.some_or]
  | binary op column left right ihl ihr =>
    have herror := h
    rw [evaluate, bind_eq_error_iff] at h
    -- nodes are listed in the order of evaluation: the left operand, the right one, the operator
    rcases h with hleft | ⟨l, hleft, h⟩
    · obtain ⟨op', column', left', right', l, r, hfind, hfails⟩ := ihl hleft
      refine ⟨op', column', left', right', l, r, ?_, hfails⟩
      rw [nodes, List.append_assoc, List.find?_append, hfind, Option.some_or]
    rw [bind_eq_error_iff] at h
    rcases h with hright | ⟨r, hright, h⟩
    · obtain ⟨op', column', left', right', l, r, hfind, hfails⟩ := ihr hright
      refine ⟨op', column', left', right', l, r, ?_, hfails⟩
      rw [nodes, List.find?_append, List.find?_append, find?_nodes_eq_none hleft, hfind]
      rfl
    · rw [bind_eq_error_iff] at h
      rcases h with hop | ⟨_, _, h⟩
      · refine ⟨op, column, left, right, l, r, ?_, hleft, hright, hop⟩
        rw [nodes, List.find?_append, List.find?_append, find?_nodes_eq_none hleft,
          find?_nodes_eq_none hright, List.find?_singleton, herror]
        rfl
      · cases h

/-- **The first failure is the error.** An expression has an error exactly when it stops with it.

**Proof sketch.** One direction is `Targeting.Expression.stopsWith_of_evaluate`. For the other one,
an expression that stops has a node without a value, so it has no value itself, and its error is
that of the first such node, on the same operands. -/
theorem evaluate_eq_error_iff {around : Surroundings} {e : Expression} {error : RuleError} :
    e.evaluate around = .error error ↔ e.StopsWith around error := by
  refine ⟨stopsWith_of_evaluate, ?_⟩
  rintro ⟨op, column, left, right, l, r, hfind, hleft, hright, hop⟩
  cases h : e.evaluate around with
  | ok value =>
    rw [find?_nodes_eq_none h] at hfind
    cases hfind
  | error other =>
    -- both errors are those of the first node without a value, which is the same for both
    obtain ⟨op', column', left', right', l', r', hfind', hleft', hright', hop'⟩ :=
      stopsWith_of_evaluate h
    rw [hfind] at hfind'
    obtain ⟨rfl, rfl, rfl, rfl⟩ := Expression.binary.inj (Option.some.inj hfind')
    rw [hleft] at hleft'
    rw [hright] at hright'
    obtain rfl := Except.ok.inj hleft'
    obtain rfl := Except.ok.inj hright'
    rw [hop] at hop'
    exact congrArg Except.error (Except.error.inj hop').symm

end Expression

/-! ## The machine -/

namespace Machine

/-- The machine pushes an operand. -/
lemma next_atom (around : Surroundings) (machine : Machine) (a : Atom) (column : Nat) :
    next around machine ⟨a.token, column⟩ = .ok (machine.push (a.operand around.snapshot)) := by
  cases a <;> rfl

/-- The machine applies an operator to the two operands on top of the stack. -/
lemma next_operator (around : Surroundings) (op : Operator) (column : Nat) (left right : Operand)
    (stack : List Operand) (trace : Trace) :
    next around ⟨right :: left :: stack, trace⟩ ⟨.operator op, column⟩ =
      around.operate op left right column >>= fun (result, steps) =>
        .ok ⟨.literal (.truth result) :: stack, trace ++ steps⟩ :=
  rfl

end Machine

namespace Expression

/-- The code of an expression leaves its value on the stack and its steps in the trace.

**Proof sketch.** Induction on the expression, for every machine and all code that follows. The code
of an operator is that of its operands and the operator, which finds their values on the stack. -/
theorem foldlM_postOrder (around : Surroundings) (e : Expression) (machine : Machine)
    (code : List (Located Token)) :
    (e.postOrder ++ code).foldlM (Machine.next around) machine =
      e.evaluate around >>= fun (value, trace) =>
        code.foldlM (Machine.next around) ⟨value :: machine.stack, machine.trace ++ trace⟩ := by
  induction e generalizing machine code with
  | atom a column =>
    rw [postOrder, List.singleton_append, List.foldlM_cons, Machine.next_atom]
    simp [evaluate, Machine.push, bind, Except.bind]
  | group opening inner closing ih => exact ih machine code
  | binary op column left right ihl ihr =>
    rw [postOrder, List.append_assoc, List.append_assoc, ihl, evaluate, bind_assoc]
    refine bind_congr ?_
    rintro ⟨leftValue, leftTrace⟩
    dsimp only
    rw [ihr, bind_assoc]
    refine bind_congr ?_
    rintro ⟨rightValue, rightTrace⟩
    dsimp only
    rw [List.singleton_append, List.foldlM_cons, Machine.next_operator, bind_assoc, bind_assoc]
    refine bind_congr ?_
    rintro ⟨result, trace⟩
    show code.foldlM _ _ = code.foldlM _ _
    simp only [List.append_assoc]

/-- The last token of the code of an expression stands at its column. -/
lemma getLast?_postOrder (e : Expression) :
    (e.postOrder.getLast?.map (·.column)).getD 1 = e.column := by
  induction e with
  | atom a column => rfl
  | group opening inner closing ih => exact ih
  | binary op column left right _ _ => simp [postOrder, Expression.column]

end Expression

/-! ## Rules -/

/-- The tree of a rule in a snapshot, or the first fault of the rule. -/
def Expression.ofRule (snapshot : Snapshot) (policy : FieldPolicy) (rule : String) :
    Except RuleError Expression := do
  let tokens ← tokensOf snapshot policy rule
  match h : checkTokens tokens with
  | .ok () => return (ofTokens? tokens).get (isSome_ofTokens? h)
  | .error error => .error error

/-- The tree of a rule is the one that the grammar has for the tokens of the rule. -/
theorem Expression.ofRule_eq_ok_iff {snapshot : Snapshot} {policy : FieldPolicy} {rule : String}
    {tree : Expression} :
    ofRule snapshot policy rule = .ok tree ↔
      ∃ tokens, tokensOf snapshot policy rule = .ok tokens ∧ checkTokens tokens = .ok () ∧
        Derives .disjunction tokens tree := by
  rw [ofRule, bind_eq_ok_iff]
  refine exists_congr fun tokens => and_congr_right fun _ => ?_
  split
  · next h =>
    rw [← ofTokens?_eq_some_iff, Option.eq_some_iff_get_eq]
    constructor
    · intro htree
      exact ⟨h, isSome_ofTokens? h, Except.ok.inj htree⟩
    · rintro ⟨-, hsome, htree⟩
      exact congrArg Except.ok htree
  · next error h => simp [h]

/-- The program of a tree: its code is the order of the tree, and its names are those of the
variables as they are written. -/
def Expression.program (tree : Expression) : Program :=
  ⟨tree.postOrder, NameSet.ofList (tree.tokens.filterMap (·.value.variableName?))⟩

/-- A program computes the outcome of its tree: the machine ends with the value of the tree as the
only operand. -/
theorem Program.outcome_program (around : Surroundings) (tree : Expression) :
    tree.program.outcome around = tree.outcome around := by
  have hrun := tree.foldlM_postOrder around {} []
  rw [List.append_nil] at hrun
  rw [outcome, Expression.program, hrun, Expression.getLast?_postOrder, Expression.outcome,
    bind_assoc]
  refine bind_congr ?_
  rintro ⟨value, trace⟩
  show Machine.finish ⟨[value], [] ++ trace⟩ tree.column = _
  rfl

/-- The program of a rule is that of its tree, and a rule that has no tree has the same fault.

**Proof sketch.** By cases on the tokens and on the check, which both sides read alike. Tokens that
are accepted are those of a tree, and the reverse Polish order of these is the post-order of the
tree, by `Targeting.reversePolish_tokens`. -/
theorem Program.ofRule_eq_map (snapshot : Snapshot) (policy : FieldPolicy) (rule : String) :
    ofRule snapshot policy rule = (Expression.ofRule snapshot policy rule).map (·.program) := by
  cases htokens : tokensOf snapshot policy rule with
  | error error =>
    rw [ofRule, Expression.ofRule, htokens]
    rfl
  | ok tokens =>
    cases hcheck : checkTokens tokens with
    | error error =>
      simp only [ofRule, Expression.ofRule, htokens, hcheck, bind, Except.bind]
      split
      · next h => rw [h] at hcheck; cases hcheck
      · next other h => rw [h] at hcheck; cases hcheck; rfl
    | ok _ =>
      obtain ⟨tree, htree⟩ := Option.isSome_iff_exists.1 (Expression.isSome_ofTokens? hcheck)
      have hderives := Expression.ofTokens?_eq_some_iff.1 htree
      rw [Expression.ofRule_eq_ok_iff.2 ⟨tokens, htokens, hcheck, hderives⟩]
      obtain ⟨rfl, hfits⟩ := hderives.fits
      simp only [ofRule, htokens, hcheck, bind, Except.bind, reversePolish_tokens hfits]
      rfl

/-- What a rule comes to is the outcome of its tree. -/
lemma Program.bind_ofRule_outcome (snapshot : Snapshot) (policy : FieldPolicy) (rule : String)
    (around : Surroundings) :
    (Program.ofRule snapshot policy rule >>= fun program => program.outcome around) =
      Expression.ofRule snapshot policy rule >>= fun tree => tree.outcome around := by
  rw [Program.ofRule_eq_map]
  cases Expression.ofRule snapshot policy rule with
  | error error => rfl
  | ok tree => exact Program.outcome_program around tree

namespace Engine

/-! ## References -/

/-- The outcome of a reference to an audience by the operator at a column: that of the tree of the
audience's rule, in which further references are followed from the longer trail. -/
def follow (engine : Engine) (snapshot : Snapshot) (traced : Bool) (trail : Trail) (name : String)
    (column : Nat) : Outcome :=
  if _cyclic : name ∈ trail.chain then .error ⟨.cyclicReference name, column⟩
  else if engine.depthLimit ≤ trail.depth then .error ⟨.depthExceeded engine.depthLimit, column⟩
  else
    match _registered : snapshot.rule? name with
    | none => .error ⟨.unknownAudience name, column⟩
    | some rule => do
      let tree ← Expression.ofRule snapshot engine.policy rule
      tree.outcome ⟨snapshot, traced, fun inner column =>
        follow engine snapshot traced (trail.enter name) inner column⟩
termination_by (snapshot.unvisited trail.chain).length
decreasing_by exact Snapshot.length_unvisited_cons_lt _registered _cyclic

/-- What the trees of a trail depend on. -/
def aroundTree (engine : Engine) (snapshot : Snapshot) (traced : Bool) (trail : Trail) :
    Surroundings :=
  ⟨snapshot, traced, engine.follow snapshot traced trail⟩

/-- References are followed from tree to tree.

**Proof sketch.** Induction along the references that are open: a reference that is followed leaves
fewer audiences for those in its rule, and the rule comes to what its tree does. -/
theorem refer_eq_follow (engine : Engine) (snapshot : Snapshot) (traced : Bool) (trail : Trail) :
    engine.refer snapshot traced trail = engine.follow snapshot traced trail := by
  funext name column
  fun_induction follow engine snapshot traced trail name column with
  | case1 trail name column hcyclic => rw [refer, dif_pos hcyclic]
  | case2 trail name column hcyclic hdepth => rw [refer, dif_neg hcyclic, if_pos hdepth]
  | case3 trail name column hcyclic hdepth hrule =>
    rw [refer, dif_neg hcyclic, if_neg hdepth]
    split
    · rfl
    · next rule h => rw [hrule] at h; cases h
  | case4 trail name column hcyclic hdepth rule hrule ih =>
    rw [refer, dif_neg hcyclic, if_neg hdepth]
    split
    · next h => rw [hrule] at h; cases h
    · next other h =>
      rw [hrule] at h
      obtain rfl := Option.some.inj h
      rw [Program.bind_ofRule_outcome]
      refine bind_congr fun tree => ?_
      congr 2
      funext inner column
      exact ih inner column

/-- The outcome of a rule on a trail is that of its tree. -/
lemma outcomeOn_eq_bind (engine : Engine) (snapshot : Snapshot) (traced : Bool) (trail : Trail)
    (rule : String) :
    engine.outcomeOn snapshot traced trail rule =
      Expression.ofRule snapshot engine.policy rule >>= fun tree =>
        tree.outcome (engine.aroundTree snapshot traced trail) := by
  rw [outcomeOn, Program.bind_ofRule_outcome, around, refer_eq_follow]
  rfl

/-- **The engine evaluates the tree of a rule.** A rule that has a program has exactly one tree in
the grammar. The outcome of the rule is that of the tree, in which both operands of every operator
are evaluated, the left one first, and references are followed from tree to tree; and the tree has
an error exactly when it stops with it, at the first operator that fails on its operands.

**Proof sketch.** A rule with a program has a tree, by `Targeting.Program.ofRule_eq_map`, whose
tokens are those of the rule, and the grammar has no other tree of them. The outcome is that of the
tree, by `Targeting.Engine.outcomeOn_eq_bind`. Where the tree stops is
`Targeting.Expression.evaluate_eq_error_iff`. -/
theorem outcome_eq_tree (engine : Engine) (snapshot : Snapshot) (rule : String)
    (h : (Program.ofRule snapshot engine.policy rule).isOk = true) :
    ∃ tokens tree, tokensOf snapshot engine.policy rule = .ok tokens ∧
      Derives .disjunction tokens tree ∧
      (∀ other, Derives .disjunction tokens other → other = tree) ∧
      engine.outcome snapshot rule =
        (tree.outcome (engine.aroundTree snapshot false (.root snapshot.audience))).map (·.1) ∧
      ∀ error,
        tree.evaluate (engine.aroundTree snapshot false (.root snapshot.audience)) = .error error ↔
          tree.StopsWith (engine.aroundTree snapshot false (.root snapshot.audience)) error := by
  rw [Program.ofRule_eq_map] at h
  cases htree : Expression.ofRule snapshot engine.policy rule with
  | error error => rw [htree] at h; cases h
  | ok tree =>
    obtain ⟨tokens, htokens, -, hderives⟩ := Expression.ofRule_eq_ok_iff.1 htree
    refine ⟨tokens, tree, htokens, hderives, fun other hother => hderives.unique hother, ?_,
      fun error => Expression.evaluate_eq_error_iff⟩
    rw [outcome, outcomeFor, outcomeOn_eq_bind, htree]
    rfl

/-- A rule with a group, whose second operand refers to an audience with a rule of its own. The
machine finds it true, and so does its tree.

**Proof sketch.** That the rule has a program and what the machine finds is computed. That the tree
has the same outcome is the theorem. -/
theorem outcome_eq_tree_nested :
    let snapshot : Snapshot := { rules := .ofList [("m", "'a' == 'a' || 'b' == 'c'")] }
    let rule := "(Role == 'x' || Audience == 'm') && 'd' == 'd'"
    (Program.ofRule snapshot .lenient rule).isOk = true ∧ outcome {} snapshot rule = .ok true ∧
      ∃ tokens tree, tokensOf snapshot .lenient rule = .ok tokens ∧
        Derives .disjunction tokens tree ∧
        (tree.outcome (aroundTree {} snapshot false (.root ""))).map (·.1) = .ok true := by
  intro snapshot rule
  have hprogram : (Program.ofRule snapshot .lenient rule).isOk = true := by
    unfold snapshot rule
    decide +kernel
  have hvalue : outcome {} snapshot rule = .ok true := by
    unfold snapshot rule
    decide +kernel
  obtain ⟨tokens, tree, htokens, hderives, -, houtcome, -⟩ :=
    outcome_eq_tree {} snapshot rule hprogram
  exact ⟨hprogram, hvalue, tokens, tree, htokens, hderives, houtcome.symm.trans hvalue⟩

end Engine

end Targeting
