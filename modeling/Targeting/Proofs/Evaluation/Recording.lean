import Targeting.Proofs.Evaluation.ReferenceGraph

/-!
# Recorded steps

An engine may record the operators that it applies. That it does so changes nothing else: reports
have the same results, names and errors, and without recording they have no steps.

What is recorded follows the tree of the rule. The steps of an operator are those of its left
operand, then those of its right one; if the operator refers to an audience, the steps of this
audience's rule come next; the last step is that of the operator. So an audience that is referred to
twice has its steps twice, and which operators are recorded in which order can be told from the
rules without evaluating them.

## Main definitions

* `Targeting.Expression.Records` — the value of an expression, and the steps that are recorded.
* `Targeting.Expression.Unrolls` — the operators of an expression and of all rules that it refers
  to, in the order in which they are applied.

## Main results

* `Targeting.Engine.report_untraced` — reports without recording.
* `Targeting.Engine.follow_records` — what is recorded of a reference.
* `Targeting.Expression.Records.exists_unrolls` — each operator has one step.
* `Targeting.Engine.report_traced` — what a report shows of an evaluation.
-/

set_option autoImplicit false

namespace Targeting

/-! ## Recording or not -/

namespace Engine

/-- Without recording, a rule has the same outcome, and no steps.

**Proof sketch.** The engine that records and the one that does not are alike in the same snapshot,
with traces that correspond if the second one is empty. So their outcomes follow each other, and
nothing is excused. -/
lemma outcomeOn_untraced (engine : Engine) (snapshot : Snapshot) (trail : Trail) (rule : String) :
    outcomeOn { engine with traced := false } snapshot false trail rule =
      (outcomeOn { engine with traced := true } snapshot true trail rule).map fun result =>
        (result.1, []) := by
  have halike : Alike (fun _ => False) Eq { engine with traced := true }
      { engine with traced := false } snapshot snapshot :=
    .of_findRule rfl (fun _ => rfl) fun _ => .refl (fun _ => ⟨rfl, .refl (fun _ => rfl) _⟩) _
  have hnone : Trace.Corresponds (fun _ steps => steps = []) true false :=
    ⟨rfl, fun hs ht => by rw [hs, ht]; rfl, fun _ => rfl⟩
  have hfollows := halike.outcomeOn hnone (rfl : trail = trail)
    (.refl (fun _ => rfl) (Program.ofRule snapshot engine.policy rule))
  generalize outcomeOn { engine with traced := false } snapshot false trail rule = untraced
    at hfollows ⊢
  generalize outcomeOn { engine with traced := true } snapshot true trail rule = traced
    at hfollows ⊢
  cases hfollows with
  | ok hsame => exact congrArg Except.ok (Prod.ext hsame.1.symm hsame.2)
  | error error => rfl
  | excused hfalse => exact hfalse.elim

/-- **Recording changes nothing else.** The report of an engine that does not record is that of one
that does, without the steps; and where the one fails, the other fails with the same error.

**Proof sketch.** Both reports read the same rule and the same program, and the outcome without
steps is the one with steps, without them, by `Targeting.Engine.outcomeOn_untraced`. -/
theorem report_untraced (engine : Engine) (snapshot : Snapshot) (audience : String) :
    report { engine with traced := false } snapshot audience =
      (report { engine with traced := true } snapshot audience).map fun report =>
        { report with trace := [] } := by
  unfold Engine.report
  cases snapshot.rule? audience with
  | none => rfl
  | some rule =>
    dsimp only
    split_ifs
    · rfl
    · have houtcome := engine.outcomeOn_untraced snapshot (.root audience) rule
      unfold outcomeOn at houtcome
      cases hprogram : Program.ofRule snapshot engine.policy rule with
      | error error => rfl
      | ok program =>
        simp only [hprogram, bind, Except.bind] at houtcome ⊢
        rw [houtcome]
        cases program.outcome
          (around { engine with traced := true } snapshot true (.root audience)) <;> rfl

end Engine

/-! ## Operators -/

namespace Operator

/-- The audience that an operator refers to by two operands, as they are written. -/
def target? (op : Operator) (left right : Operand) : Option String :=
  op.reference? (Operand.orient left right).1 (Operand.orient left right).2

/-- The result that an operator has by itself on two operands, as they are written. -/
def truth? (op : Operator) (left right : Operand) : Option Bool :=
  op.result? (Operand.orient left right).1 (Operand.orient left right).2

end Operator

/-- Where steps are recorded, an operator that succeeds has its own step last. Before it come those
of the audience that it refers to, if it refers to one; otherwise it has its result by itself.

**Proof sketch.** By cases on whether the operator refers to an audience. If it does, its step comes
behind those of the reference, and otherwise it is the only one. -/
lemma Surroundings.operate_eq_ok {around : Surroundings} (htraced : around.traced = true)
    {op : Operator} {left right : Operand} {column : Nat} {result : Bool} {steps : Trace}
    (h : around.operate op left right column = .ok (result, steps)) :
    ∃ inner, steps = inner ++ [⟨left, op, right, result⟩] ∧
      match op.target? left right with
      | some name => around.refer name column = .ok (result, inner)
      | none => op.truth? left right = some result ∧ inner = [] := by
  unfold operate at h
  simp only [combine?_eq, htraced, if_true] at h
  rw [Operator.target?, Operator.truth?]
  cases hname : op.reference? (Operand.orient left right).1 (Operand.orient left right).2 with
  | some name =>
    rw [hname] at h
    obtain ⟨⟨result', inner⟩, hrefer, h⟩ := bind_eq_ok_iff.1 h
    obtain ⟨rfl, rfl⟩ := Prod.mk.inj (Except.ok.inj h)
    exact ⟨inner, rfl, hrefer⟩
  | none =>
    rw [hname] at h
    cases hresult : op.result? (Operand.orient left right).1 (Operand.orient left right).2 with
    | none => rw [hresult] at h; cases h
    | some result' =>
      rw [hresult] at h
      obtain ⟨rfl, rfl⟩ := Prod.mk.inj (Except.ok.inj h)
      exact ⟨[], rfl, rfl, rfl⟩

namespace Expression

/-! ## What is recorded -/

/-- The value of an expression in a snapshot and the steps that are recorded of its evaluation: for
each operator one step, behind those of its operands and of the rule that it refers to. -/
inductive Records (snapshot : Snapshot) (policy : FieldPolicy) :
    Expression → Operand → Trace → Prop
  | atom (a : Atom) (column : Nat) :
    Records snapshot policy (atom a column) (a.operand snapshot) []
  | group {opening closing : Nat} {inner : Expression} {value : Operand} {steps : Trace} :
    Records snapshot policy inner value steps →
      Records snapshot policy (group opening inner closing) value steps
  | operator {op : Operator} {column : Nat} {left right : Expression} {l r : Operand}
    {before behind : Trace} {result : Bool} :
    Records snapshot policy left l before → Records snapshot policy right r behind →
      op.target? l r = none → op.truth? l r = some result →
      Records snapshot policy (binary op column left right) (.literal (.truth result))
        (before ++ behind ++ [⟨l, op, r, result⟩])
  | reference {op : Operator} {column : Nat} {left right : Expression} {l r : Operand}
    {before behind inner : Trace} {name rule : String} {tree : Expression} {value : Operand}
    {result : Bool} :
    Records snapshot policy left l before → Records snapshot policy right r behind →
      op.target? l r = some name → snapshot.rule? name = some rule →
      ofRule snapshot policy rule = .ok tree → Records snapshot policy tree value inner →
      value.truth? = some result →
      Records snapshot policy (binary op column left right) (.literal (.truth result))
        (before ++ behind ++ inner ++ [⟨l, op, r, result⟩])

/-- Whether the rule of an audience has a result, with certain steps recorded. -/
def RecordsRule (snapshot : Snapshot) (policy : FieldPolicy) (name : String) (result : Bool)
    (steps : Trace) : Prop :=
  ∃ rule tree value, snapshot.rule? name = some rule ∧ ofRule snapshot policy rule = .ok tree ∧
    Records snapshot policy tree value steps ∧ value.truth? = some result

section Records

variable {snapshot : Snapshot} {policy : FieldPolicy} {e : Expression} {value : Operand}
  {steps : Trace}

/-- An expression that has a value where steps are recorded has recorded its own, if the references
in it have recorded theirs.

**Proof sketch.** Induction on the expression. The steps of an operator come behind those of its
operands, and its own are told by `Targeting.Surroundings.operate_eq_ok`. -/
lemma records_of_evaluate {around : Surroundings} (htraced : around.traced = true)
    (hrefer : ∀ name column result steps, around.refer name column = .ok (result, steps) →
      RecordsRule around.snapshot policy name result steps)
    (h : e.evaluate around = .ok (value, steps)) :
    e.Records around.snapshot policy value steps := by
  induction e generalizing value steps with
  | atom a column =>
    obtain ⟨rfl, rfl⟩ := Prod.mk.inj (Except.ok.inj h)
    exact .atom a column
  | group opening inner closing ih => exact .group (ih h)
  | binary op column left right ihl ihr =>
    obtain ⟨⟨l, before⟩, hleft, h⟩ := bind_eq_ok_iff.1 h
    obtain ⟨⟨r, behind⟩, hright, h⟩ := bind_eq_ok_iff.1 h
    obtain ⟨⟨result, own⟩, hoperate, h⟩ := bind_eq_ok_iff.1 h
    obtain ⟨rfl, rfl⟩ := Prod.mk.inj (Except.ok.inj h)
    obtain ⟨inner, rfl, hinner⟩ := Surroundings.operate_eq_ok htraced hoperate
    cases hname : op.target? l r with
    | none =>
      rw [hname] at hinner
      obtain ⟨hresult, rfl⟩ := hinner
      exact .operator (ihl hleft) (ihr hright) hname hresult
    | some name =>
      rw [hname] at hinner
      obtain ⟨rule, tree, value, hrule, htree, hrecords, htruth⟩ := hrefer _ _ _ _ hinner
      rw [← List.append_assoc]
      exact .reference (ihl hleft) (ihr hright) hname hrule htree hrecords htruth

/-- An expression that has an outcome where steps are recorded has recorded its own, if the
references in it have recorded theirs. -/
lemma exists_records_of_outcome {around : Surroundings} (htraced : around.traced = true)
    (hrefer : ∀ name column result steps, around.refer name column = .ok (result, steps) →
      RecordsRule around.snapshot policy name result steps) {result : Bool}
    (h : e.outcome around = .ok (result, steps)) :
    ∃ value, e.Records around.snapshot policy value steps ∧ value.truth? = some result := by
  obtain ⟨⟨value, trace⟩, hvalue, h⟩ := bind_eq_ok_iff.1 h
  dsimp only at h
  split at h
  · next htruth =>
    obtain ⟨rfl, rfl⟩ := Prod.mk.inj (Except.ok.inj h)
    exact ⟨value, records_of_evaluate htraced hrefer hvalue, htruth⟩
  · cases h

/-- The recorded value of an expression is its operand, or a truth value. -/
lemma Records.operand? (h : e.Records snapshot policy value steps) :
    e.operand? snapshot = some value ∨
      e.operand? snapshot = none ∧ ∃ b, value = .literal (.truth b) := by
  induction h with
  | atom a column => exact .inl rfl
  | group _ ih => exact ih
  | operator | reference => exact .inr ⟨rfl, _, rfl⟩

/-- An expression that is no operand has an operator. -/
lemma exists_mem_nodes_of_operand?_eq_none (h : e.operand? snapshot = none) :
    ∃ op column left right, binary op column left right ∈ e.nodes := by
  induction e with
  | atom a column => cases h
  | group opening inner closing ih =>
    obtain ⟨op, column, left, right, hmem⟩ := ih h
    exact ⟨op, column, left, right, List.mem_append_left _ hmem⟩
  | binary op column left right => exact ⟨op, column, left, right, by simp [nodes]⟩

/-- If an expression has operators, the last step that is recorded has the value of the expression
as its result. -/
lemma Records.getLast? (h : e.Records snapshot policy value steps)
    (hoperator : ∃ op column left right, binary op column left right ∈ e.nodes) :
    ∃ step, steps.getLast? = some step ∧ value = .literal (.truth step.result) := by
  induction h with
  | atom a column =>
    obtain ⟨op, column, left, right, hmem⟩ := hoperator
    cases List.mem_singleton.1 hmem
  | group _ ih =>
    obtain ⟨op, column, left, right, hmem⟩ := hoperator
    exact ih ⟨op, column, left, right, by simpa [nodes] using hmem⟩
  | operator | reference => exact ⟨_, List.getLast?_concat, rfl⟩

end Records

/-! ## Operators in order -/

/-- The audience that an operator between two expressions refers to. -/
def referent? (snapshot : Snapshot) (op : Operator) (left right : Expression) : Option String := do
  op.target? (← left.operand? snapshot) (← right.operand? snapshot)

/-- The operators of an expression, each behind those of its left and of its right operand. Those of
a rule that an operator refers to are put in right before the operator, each time anew. -/
inductive Unrolls (snapshot : Snapshot) (policy : FieldPolicy) :
    Expression → List (Located Operator) → Prop
  | atom (a : Atom) (column : Nat) : Unrolls snapshot policy (atom a column) []
  | group {opening closing : Nat} {inner : Expression} {operators : List (Located Operator)} :
    Unrolls snapshot policy inner operators →
      Unrolls snapshot policy (group opening inner closing) operators
  | operator {op : Operator} {column : Nat} {left right : Expression}
    {before behind : List (Located Operator)} :
    Unrolls snapshot policy left before → Unrolls snapshot policy right behind →
      referent? snapshot op left right = none →
      Unrolls snapshot policy (binary op column left right) (before ++ behind ++ [⟨op, column⟩])
  | reference {op : Operator} {column : Nat} {left right : Expression}
    {before behind inner : List (Located Operator)} {name rule : String} {tree : Expression} :
    Unrolls snapshot policy left before → Unrolls snapshot policy right behind →
      referent? snapshot op left right = some name → snapshot.rule? name = some rule →
      ofRule snapshot policy rule = .ok tree → Unrolls snapshot policy tree inner →
      Unrolls snapshot policy (binary op column left right)
        (before ++ behind ++ inner ++ [⟨op, column⟩])

section Unrolls

variable {snapshot : Snapshot} {policy : FieldPolicy} {e : Expression}

/-- The operators of an expression have one order.

**Proof sketch.** Induction on the first order, with the last step of the second one by cases.
Whether an operator refers to an audience, which one that is, and what its tree is, are the same on
both sides. -/
lemma Unrolls.unique {operators other : List (Located Operator)}
    (h : e.Unrolls snapshot policy operators) (h' : e.Unrolls snapshot policy other) :
    other = operators := by
  induction h generalizing other with
  | atom a column =>
    cases h'
    rfl
  | group _ ih =>
    cases h' with
    | group hinner => exact ih hinner
  | operator _ _ hnone ihl ihr =>
    cases h' with
    | operator hleft hright _ => rw [ihl hleft, ihr hright]
    | reference _ _ hname => rw [hnone] at hname; cases hname
  | reference _ _ hname hrule htree _ ihl ihr ih =>
    cases h' with
    | operator _ _ hnone => rw [hname] at hnone; cases hnone
    | reference hleft hright hname' hrule' htree' htarget =>
      obtain rfl := Option.some.inj (hname.symm.trans hname')
      obtain rfl := Option.some.inj (hrule.symm.trans hrule')
      obtain rfl := Except.ok.inj (htree.symm.trans htree')
      rw [ihl hleft, ihr hright, ih htarget]

/-- An operator refers to an audience by its operands exactly when it does by their values: an
operand with operators of its own has a truth value, which names nothing.

**Proof sketch.** An operand stands for itself. An operator between the operands has a truth value,
and a truth value neither is the audience attribute nor names an audience. -/
lemma referent?_eq_target? {op : Operator} {left right : Expression} {l r : Operand}
    {before behind : Trace} (hleft : left.Records snapshot policy l before)
    (hright : right.Records snapshot policy r behind) :
    referent? snapshot op left right = op.target? l r := by
  -- a truth value is neither the audience attribute nor a text
  have hnone : ∀ b : Bool, ∀ o : Operand, op.target? (.literal (.truth b)) o = none ∧
      op.target? o (.literal (.truth b)) = none := by
    intro b o
    simp only [Operator.target?, Option.eq_none_iff_forall_ne_some, ne_eq,
      Operator.reference?_orient, Operand.Names]
    simp [Operand.value?]
  unfold referent?
  rcases hleft.operand? with hl | ⟨hl, b, rfl⟩
  · rcases hright.operand? with hr | ⟨hr, b, rfl⟩
    · rw [hl, hr]
      rfl
    · rw [hl, hr, (hnone b l).2]
      rfl
  · rw [hl, (hnone b r).1]
    rfl

/-- **Each operator has one step.** The steps that are recorded of an expression are those of its
operators and of the operators of the rules that it refers to, in their order.

**Proof sketch.** Induction on what is recorded. The order of an operator is made from those of its
operands and, where it refers to an audience, of the tree there;
`Targeting.Expression.referent?_eq_target?` says that it does so in both senses. -/
theorem Records.exists_unrolls {value : Operand} {steps : Trace}
    (h : e.Records snapshot policy value steps) :
    ∃ operators, e.Unrolls snapshot policy operators ∧
      steps.map (·.op) = operators.map (·.value) := by
  induction h with
  | atom a column => exact ⟨[], .atom a column, rfl⟩
  | group _ ih =>
    obtain ⟨operators, hoperators, hsteps⟩ := ih
    exact ⟨operators, .group hoperators, hsteps⟩
  | operator hleft hright hnone hresult ihl ihr =>
    obtain ⟨before, hbefore, hstepsBefore⟩ := ihl
    obtain ⟨behind, hbehind, hstepsBehind⟩ := ihr
    have hreferent := (referent?_eq_target? hleft hright).trans hnone
    exact ⟨_, .operator hbefore hbehind hreferent, by simp [hstepsBefore, hstepsBehind]⟩
  | reference hleft hright hname hrule htree hrecords htruth ihl ihr ih =>
    obtain ⟨before, hbefore, hstepsBefore⟩ := ihl
    obtain ⟨behind, hbehind, hstepsBehind⟩ := ihr
    obtain ⟨inner, hinner, hstepsInner⟩ := ih
    have hreferent := (referent?_eq_target? hleft hright).trans hname
    exact ⟨_, .reference hbefore hbehind hreferent hrule htree hinner,
      by simp [hstepsBefore, hstepsBehind, hstepsInner]⟩

end Unrolls

end Expression

/-! ## References and reports -/

namespace Engine

/-- What is recorded of a reference is what is recorded of the audience's rule.

**Proof sketch.** Induction along the references that are open. -/
theorem follow_records {engine : Engine} {snapshot : Snapshot} {trail : Trail} {name : String}
    {column : Nat} {result : Bool} {steps : Trace}
    (h : engine.follow snapshot true trail name column = .ok (result, steps)) :
    Expression.RecordsRule snapshot engine.policy name result steps := by
  fun_induction follow engine snapshot true trail name column generalizing result steps with
  | case1 | case2 | case3 => cases h
  | case4 trail name column hcyclic hdepth rule hrule ih =>
    obtain ⟨tree, htree, houtcome⟩ := bind_eq_ok_iff.1 h
    obtain ⟨value, hrecords, htruth⟩ := Expression.exists_records_of_outcome rfl
      (fun inner column _ _ hinner => ih inner column hinner) houtcome
    exact ⟨rule, tree, value, hrule, htree, hrecords, htruth⟩

/-- **What a report shows of an evaluation.** An engine that does not record makes the reports of
one that does, without the steps, and fails with the same errors. If there is a report with steps,
then they are what is recorded of the tree of the audience's rule. There is one step for each
operator of the tree and of the rules that it refers to, counted each time that they are evaluated:
behind the steps of its left operand, of its right operand, and of the rule that it refers to. If
the rule has an operator, the result of the last step is that of the report.

**Proof sketch.** Without steps the report is `Targeting.Engine.report_untraced`. With them, the
rule has a tree whose outcome is that of the report, and it has recorded its steps, by induction
over the references. These unroll in one order, and the last step is that of the root. -/
theorem report_traced (engine : Engine) (snapshot : Snapshot) (audience : String) :
    report { engine with traced := false } snapshot audience =
      (report { engine with traced := true } snapshot audience).map (fun report =>
        { report with trace := [] }) ∧
    ∀ shown, report { engine with traced := true } snapshot audience = .ok shown →
      ∃ rule tree value operators, snapshot.rule? audience = some rule ∧
        Expression.ofRule snapshot engine.policy rule = .ok tree ∧
        tree.Records snapshot engine.policy value shown.trace ∧
        value.truth? = some shown.matched ∧
        tree.Unrolls snapshot engine.policy operators ∧
        (∀ other, tree.Unrolls snapshot engine.policy other → other = operators) ∧
        shown.trace.map (·.op) = operators.map (·.value) ∧
        ((∃ op column left right, .binary op column left right ∈ tree.nodes) →
          shown.trace.getLast?.map (·.result) = some shown.matched) := by
  refine ⟨engine.report_untraced snapshot audience, fun shown h => ?_⟩
  obtain ⟨rule, -, hrule, -, houtcome, -, -⟩ := report_eq_ok_iff.1 h
  rw [outcomeOn_eq_bind] at houtcome
  obtain ⟨tree, htree, houtcome⟩ := bind_eq_ok_iff.1 houtcome
  obtain ⟨value, hrecords, htruth⟩ := Expression.exists_records_of_outcome rfl
    (fun _ _ _ _ hinner => follow_records hinner) houtcome
  obtain ⟨operators, hunrolls, hsteps⟩ := hrecords.exists_unrolls
  refine ⟨rule, tree, value, operators, hrule, htree, hrecords, htruth, hunrolls,
    fun other hother => hunrolls.unique hother, hsteps, fun hoperator => ?_⟩
  obtain ⟨step, hlast, rfl⟩ := hrecords.getLast? hoperator
  rw [hlast, ← htruth]
  rfl

/-- An audience that is referred to twice, once by way of another one, has its step twice.

**Proof sketch.** The steps of the report are computed, and so is that the rule is not a single
operand. The order of the operators and the last step are those of the theorem. -/
theorem report_traced_twice :
    let snapshot : Snapshot :=
      { role := "x"
        rules := .ofList
          [("a", "(Audience == 'b') && 'c' == Audience"), ("b", "Role != 'y' || Audience == 'c'"),
            ("c", "'z' =~ 'z'")] }
    ∃ shown tree operators, report { traced := true } snapshot "a" = .ok shown ∧
      shown.trace.map (·.text) =
        ["Role='x' != 'y' => true", "'z' =~ 'z' => true", "Audience == 'c' => true",
          "true || true => true", "Audience == 'b' => true", "'z' =~ 'z' => true",
          "'c' == Audience => true", "true && true => true"] ∧
      Expression.ofRule snapshot .lenient "(Audience == 'b') && 'c' == Audience" = .ok tree ∧
      tree.Unrolls snapshot .lenient operators ∧
      operators.map (·.value) =
        [.notEqual, .startsWith, .equal, .or, .equal, .startsWith, .equal, .and] ∧
      shown.trace.getLast?.map (·.result) = some shown.matched ∧
      report {} snapshot "a" = .ok { shown with trace := [] } := by
  intro snapshot
  have htexts : ((report { traced := true } snapshot "a").toOption.map fun shown =>
      (shown.trace.map (·.text), shown.trace.map (·.op))) =
        some (["Role='x' != 'y' => true", "'z' =~ 'z' => true", "Audience == 'c' => true",
          "true || true => true", "Audience == 'b' => true", "'z' =~ 'z' => true",
          "'c' == Audience => true", "true && true => true"],
          [.notEqual, .startsWith, .equal, .or, .equal, .startsWith, .equal, .and]) := by
    decide +kernel
  obtain ⟨shown, hshown, hsteps⟩ := Option.map_eq_some_iff.1 htexts
  obtain ⟨hlines, hops⟩ := Prod.mk.inj hsteps
  have hreport := toOption_eq_some_iff.1 hshown
  have hroot : (Expression.ofRule snapshot .lenient
      "(Audience == 'b') && 'c' == Audience").toOption.map (·.operand? snapshot) = some none := by
    decide +kernel
  obtain ⟨huntraced, htraced⟩ := report_traced {} snapshot "a"
  obtain ⟨rule, tree, value, operators, hrule, htree, -, -, hunrolls, -, hsame, hlast⟩ :=
    htraced shown hreport
  obtain rfl : rule = "(Audience == 'b') && 'c' == Audience" :=
    Option.some.inj (hrule.symm.trans (by decide +kernel))
  have hoperator : ∃ op column left right, .binary op column left right ∈ tree.nodes := by
    rw [htree] at hroot
    exact Expression.exists_mem_nodes_of_operand?_eq_none (Option.some.inj hroot)
  rw [hreport] at huntraced
  exact ⟨shown, tree, operators, hreport, hlines, htree, hunrolls, hsame.symm.trans hops,
    hlast hoperator, huntraced⟩

end Engine

end Targeting
