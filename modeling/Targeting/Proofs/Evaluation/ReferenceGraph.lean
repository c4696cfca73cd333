import Mathlib.Logic.Relation
import Targeting.Proofs.Evaluation.Reference
import Targeting.Proofs.Evaluation.Tree
import Targeting.Proofs.Rule.FaultOrigin

/-!
# The graph of references

An audience refers to another one if the tree of its rule compares the audience attribute with an
operand whose value is the other audience's name. Since both operands of every operator are
evaluated, a rule that succeeds has followed all of its references; and a reference that is found to
be cyclic closes a cycle of this graph, because the audiences on a trail refer to one another.

## Main definitions

* `Targeting.Expression.RefersTo` — whether a tree refers to an audience.
* `Targeting.Snapshot.Refers` — the graph of references.
* `Targeting.Snapshot.Unfolds` — whether all that an audience reaches is registered and on no cycle.

## Main results

* `Targeting.Engine.refer_unfolds` — a reference that has a result reaches no cycle.
* `Targeting.Engine.refer_cyclic` — a cyclic reference leads back to the trail or to a cycle.
* `Targeting.Engine.report_detects_cycles` — cycles are detected, and nothing else is.
-/

set_option autoImplicit false

namespace Targeting

open Relation

/-! ## Operands -/

/-- Whether one of two operands is the audience attribute and the value of the other one is a
name. -/
def Operand.Names (left right : Operand) (name : String) : Prop :=
  left = .audience ∧ right.value? = some (.text name) ∨
    right = .audience ∧ left.value? = some (.text name)

/-- The operator that compares the audience attribute with a text refers to the audience of that
name. -/
lemma Operator.reference?_audience {op : Operator} (hop : op.isComparison = true)
    (other : Operand) (name : String) :
    op.reference? .audience other = some name ↔ other.value? = some (.text name) := by
  rw [reference?, if_pos ⟨hop, rfl⟩]
  split
  · next text h => simp [h]
  · next h => simpa using h name

/-- An operator refers to an audience, on whichever side the audience attribute stands, exactly
when it is a comparison of this attribute with the audience's name.

**Proof sketch.** By cases on which operand is the audience attribute. It stands first after both
are oriented, and then the operator refers to the text on the other side. Without it the operator
refers to nothing in either order. -/
lemma Operator.reference?_orient {op : Operator} {left right : Operand} {name : String} :
    op.reference? (Operand.orient left right).1 (Operand.orient left right).2 = some name ↔
      op.isComparison = true ∧ left.Names right name := by
  by_cases hop : op.isComparison = true
  · rw [and_iff_right hop, Operand.Names, Operand.orient]
    by_cases hleft : left = .audience
    · subst hleft
      rw [if_pos rfl, reference?_audience hop]
      simp [Operand.value?]
    · rw [if_neg hleft]
      by_cases hright : right = .audience
      · subst hright
        rw [if_pos (.inl rfl), reference?_audience hop]
        simp [hleft]
      · -- neither operand is the attribute, in whichever order they are compared
        have hnone : ∀ subject other : Operand, subject ≠ .audience →
            op.reference? subject other = none := by
          intro subject other hsubject
          rw [reference?, if_neg (fun h => hsubject h.2)]
        split_ifs
        · simp [hnone _ _ hright, hleft, hright]
        · simp [hnone _ _ hleft, hleft, hright]
  · rw [reference?, if_neg (fun h => hop h.1)]
    simp [hop]

/-- Whether an operator applies to two operands: it refers to an audience or has a result by
itself. -/
def Operator.Applies (op : Operator) (left right : Operand) : Prop :=
  (op.reference? (Operand.orient left right).1 (Operand.orient left right).2).isSome = true ∨
    (op.result? (Operand.orient left right).1 (Operand.orient left right).2).isSome = true

namespace Surroundings

/-- An operator that refers to an audience has a result only if the reference has one. -/
lemma exists_refer_of_operate {around : Surroundings} {op : Operator} {left right : Operand}
    {column : Nat} {result : Bool × Trace} {name : String} (hop : op.isComparison = true)
    (hnames : left.Names right name)
    (h : around.operate op left right column = .ok result) :
    ∃ result, around.refer name column = .ok result := by
  have hreference := Operator.reference?_orient.2 ⟨hop, hnames⟩
  unfold operate at h
  simp only [combine?_eq, hreference] at h
  obtain ⟨inner, hinner, -⟩ := bind_eq_ok_iff.1 h
  exact ⟨inner, hinner⟩

/-- An operator that fails does not apply to its operands, or refers to an audience and fails with
the reference.

**Proof sketch.** By cases on whether the operator refers to an audience. If it does, only the
reference can fail; if it does not, there is no result because the operator does not apply. -/
lemma operate_eq_error {around : Surroundings} {op : Operator} {left right : Operand}
    {column : Nat} {error : RuleError} (h : around.operate op left right column = .error error) :
    (¬ op.Applies left right ∧
        error = ⟨.unsupportedComparison op left.render right.render, column⟩) ∨
      ∃ name, op.isComparison = true ∧ left.Names right name ∧
        around.refer name column = .error error := by
  unfold operate at h
  simp only [combine?_eq] at h
  cases hreference : op.reference? (Operand.orient left right).1 (Operand.orient left right).2 with
  | some name =>
    rw [hreference] at h
    obtain ⟨hop, hnames⟩ := Operator.reference?_orient.1 hreference
    rcases bind_eq_error_iff.1 h with hrefer | ⟨_, -, hpure⟩
    · exact .inr ⟨name, hop, hnames, hrefer⟩
    · cases hpure
  | none =>
    rw [hreference] at h
    cases hresult : op.result? (Operand.orient left right).1 (Operand.orient left right).2 with
    | some result => rw [hresult] at h; cases h
    | none =>
      rw [hresult] at h
      cases h
      refine .inl ⟨?_, rfl⟩
      simp [Operator.Applies, hreference, hresult]

end Surroundings

/-! ## Trees -/

namespace Expression

/-- The operand that an expression without operators is. An expression with operators has a truth
value, so it is never the name of an audience. -/
def operand? (snapshot : Snapshot) : Expression → Option Operand
  | atom a _ => some (a.operand snapshot)
  | group _ inner _ => inner.operand? snapshot
  | binary _ _ _ _ => none

/-- The value of an expression without operators is its operand. -/
lemma evaluate_of_operand? {around : Surroundings} {e : Expression} {operand : Operand}
    (h : e.operand? around.snapshot = some operand) : e.evaluate around = .ok (operand, []) := by
  induction e with
  | atom a column =>
    obtain rfl := Option.some.inj h
    rfl
  | group opening inner closing ih => exact ih h
  | binary op column left right => cases h

/-- The value of an expression is its operand, or a truth value. -/
lemma operand?_of_evaluate {around : Surroundings} {e : Expression} {value : Operand × Trace}
    (h : e.evaluate around = .ok value) :
    e.operand? around.snapshot = some value.1 ∨ ∃ b, value.1 = .literal (.truth b) := by
  induction e with
  | atom a column =>
    obtain rfl := Except.ok.inj h
    exact .inl rfl
  | group opening inner closing ih => exact ih h
  | binary op column left right =>
    rw [evaluate, bind_eq_ok_iff] at h
    obtain ⟨l, -, h⟩ := h
    rw [bind_eq_ok_iff] at h
    obtain ⟨r, -, h⟩ := h
    rw [bind_eq_ok_iff] at h
    obtain ⟨⟨result, trace⟩, -, h⟩ := h
    obtain rfl := Except.ok.inj h
    exact .inr ⟨result, rfl⟩

/-- Whether a tree refers to an audience: somewhere in it a comparison has the audience attribute
on one side, and on the other an operand whose value is the audience's name. -/
def RefersTo (e : Expression) (snapshot : Snapshot) (name : String) : Prop :=
  ∃ op column left right l r, binary op column left right ∈ e.nodes ∧ op.isComparison = true ∧
    left.operand? snapshot = some l ∧ right.operand? snapshot = some r ∧ l.Names r name

/-- Whether a tree refers to an audience by the operator at a column. -/
def RefersAt (e : Expression) (snapshot : Snapshot) (name : String) (column : Nat) : Prop :=
  ∃ op left right l r, binary op column left right ∈ e.nodes ∧ op.isComparison = true ∧
    left.operand? snapshot = some l ∧ right.operand? snapshot = some r ∧ l.Names r name

/-- A tree that refers to an audience by some operator refers to it. -/
lemma RefersAt.refersTo {e : Expression} {snapshot : Snapshot} {name : String} {column : Nat}
    (h : e.RefersAt snapshot name column) : e.RefersTo snapshot name :=
  let ⟨op, left, right, l, r, hreference⟩ := h
  ⟨op, column, left, right, l, r, hreference⟩

/-- The errors that are a tree's own and not those of a reference: an operator does not apply to the
values of its operands, or the value of the tree is no condition. -/
inductive Fails (around : Surroundings) (e : Expression) : RuleError → Prop
  | operator {op : Operator} {column : Nat} {left right : Expression} {l r : Operand × Trace} :
    binary op column left right ∈ e.nodes → left.evaluate around = .ok l →
      right.evaluate around = .ok r → ¬ op.Applies l.1 r.1 →
      Fails around e ⟨.unsupportedComparison op l.1.render r.1.render, column⟩
  | result {value : Operand × Trace} : e.evaluate around = .ok value → value.1.truth? = none →
      Fails around e ⟨.nonBooleanResult value.1.render, e.column⟩

/-- A tree's own errors are faults of an operation. -/
lemma Fails.origin {around : Surroundings} {e : Expression} {error : RuleError}
    (h : e.Fails around error) : error.fault.origin = .operation := by
  cases h <;> rfl

/-- Two expressions whose values name an audience are operands.

**Proof sketch.** An expression with an operator has a truth value, which is neither the audience
attribute nor a text. So both expressions are operands, whichever of them is the attribute. -/
lemma operand?_of_names {around : Surroundings} {left right : Expression} {l r : Operand × Trace}
    {name : String} (hleft : left.evaluate around = .ok l) (hright : right.evaluate around = .ok r)
    (h : l.1.Names r.1 name) :
    left.operand? around.snapshot = some l.1 ∧ right.operand? around.snapshot = some r.1 := by
  have hl := operand?_of_evaluate hleft
  have hr := operand?_of_evaluate hright
  rcases h with ⟨hsubject, hother⟩ | ⟨hsubject, hother⟩
  · refine ⟨hl.resolve_right ?_, hr.resolve_right ?_⟩
    · rintro ⟨b, hb⟩
      rw [hb] at hsubject
      cases hsubject
    · rintro ⟨b, hb⟩
      rw [hb] at hother
      cases hother
  · refine ⟨hl.resolve_right ?_, hr.resolve_right ?_⟩
    · rintro ⟨b, hb⟩
      rw [hb] at hother
      cases hother
    · rintro ⟨b, hb⟩
      rw [hb] at hsubject
      cases hsubject

/-- A tree that has an outcome has followed all of its references. -/
lemma exists_refer_of_outcome {around : Surroundings} {e : Expression} {result : Bool × Trace}
    (h : e.outcome around = .ok result) {name : String} (hname : e.RefersTo around.snapshot name) :
    ∃ column result, around.refer name column = .ok result := by
  obtain ⟨value, hvalue, -⟩ := bind_eq_ok_iff.1 h
  obtain ⟨op, column, left, right, l, r, hmem, hop, hl, hr, hnames⟩ := hname
  obtain ⟨node, hnode⟩ := exists_evaluate_of_mem_nodes hvalue _ hmem
  rw [evaluate, evaluate_of_operand? hl, evaluate_of_operand? hr] at hnode
  change (around.operate op l r column >>= _) = _ at hnode
  obtain ⟨_, hoperate, -⟩ := bind_eq_ok_iff.1 hnode
  exact ⟨column, Surroundings.exists_refer_of_operate hop hnames hoperate⟩

/-- A tree that fails has an error of its own, or fails with one of its references.

**Proof sketch.** The value fails at an operator, which fails by itself or by its reference, by
`Targeting.Surroundings.operate_eq_error`, or the value is no condition. -/
lemma outcome_eq_error {around : Surroundings} {e : Expression} {error : RuleError}
    (h : e.outcome around = .error error) :
    e.Fails around error ∨
      ∃ name column, e.RefersAt around.snapshot name column ∧
        around.refer name column = .error error := by
  rcases bind_eq_error_iff.1 h with hvalue | ⟨⟨value, trace⟩, hvalue, hresult⟩
  · obtain ⟨op, column, left, right, l, r, hfind, hleft, hright, hoperate⟩ :=
      evaluate_eq_error_iff.1 hvalue
    have hmem := List.mem_of_find?_eq_some hfind
    rcases Surroundings.operate_eq_error hoperate with ⟨happlies, rfl⟩ | ⟨name, hop, hnames, hrefer⟩
    · exact .inl (.operator hmem hleft hright happlies)
    · obtain ⟨hl, hr⟩ := operand?_of_names hleft hright hnames
      exact .inr ⟨name, column, ⟨op, left, right, l.1, r.1, hmem, hop, hl, hr, hnames⟩, hrefer⟩
  · -- the tree has a value, but the value is no condition
    dsimp only at hresult
    split at hresult
    · cases hresult
    · next htruth =>
      cases hresult
      exact .inl (.result hvalue htruth)

end Expression

/-! ## The graph -/

namespace Snapshot

/-- Whether a rule refers to an audience: its tree does. -/
def RuleRefers (snapshot : Snapshot) (policy : FieldPolicy) (rule name : String) : Prop :=
  ∃ tree, Expression.ofRule snapshot policy rule = .ok tree ∧ tree.RefersTo snapshot name

/-- Whether an audience refers to another one: it is registered, and the tree of its rule refers to
the other one. -/
def Refers (snapshot : Snapshot) (policy : FieldPolicy) (audience name : String) : Prop :=
  ∃ rule tree, snapshot.rule? audience = some rule ∧
    Expression.ofRule snapshot policy rule = .ok tree ∧ tree.RefersTo snapshot name

/-- A registered audience refers to the audiences that its rule refers to. -/
lemma refers_iff {snapshot : Snapshot} {policy : FieldPolicy} {audience rule name : String}
    (hrule : snapshot.rule? audience = some rule) :
    snapshot.Refers policy audience name ↔ snapshot.RuleRefers policy rule name := by
  constructor
  · rintro ⟨rule', tree, hrule', htree⟩
    obtain rfl : rule = rule' := Option.some.inj (hrule.symm.trans hrule')
    exact ⟨tree, htree⟩
  · rintro ⟨tree, htree⟩
    exact ⟨rule, tree, hrule, htree⟩

/-- Whether the references from an audience on come to an end: all audiences that it reaches, itself
included, are registered, and none of them lies on a cycle. -/
structure Unfolds (snapshot : Snapshot) (policy : FieldPolicy) (audience : String) : Prop where
  registered : ∀ name, ReflTransGen (snapshot.Refers policy) audience name →
    (snapshot.rule? name).isSome = true
  acyclic : ∀ name, ReflTransGen (snapshot.Refers policy) audience name →
    ¬ TransGen (snapshot.Refers policy) name name

/-- References from a registered audience on come to an end if they do from all audiences that it
refers to: a cycle through the audience is one through the next audience on it. -/
lemma Unfolds.of_refers {snapshot : Snapshot} {policy : FieldPolicy} {audience : String}
    (hregistered : (snapshot.rule? audience).isSome = true)
    (h : ∀ next, snapshot.Refers policy audience next → snapshot.Unfolds policy next) :
    snapshot.Unfolds policy audience := by
  constructor
  · intro name hname
    rcases hname.cases_head with rfl | ⟨next, hnext, hname⟩
    · exact hregistered
    · exact (h next hnext).registered name hname
  · intro name hname hcycle
    rcases hname.cases_head with rfl | ⟨next, hnext, hname⟩
    · obtain ⟨next, hnext, hback⟩ := TransGen.head'_iff.1 hcycle
      exact (h next hnext).acyclic next .refl (.tail' hback hnext)
    · exact (h next hnext).acyclic name hname hcycle

end Snapshot

namespace Engine

variable {engine : Engine} {snapshot : Snapshot} {traced : Bool} {trail : Trail}

/-- A rule that has an outcome has followed all of its references. -/
lemma exists_refer_of_ruleRefers {rule name : String} {result : Bool × Trace}
    (h : engine.outcomeOn snapshot traced trail rule = .ok result)
    (hname : snapshot.RuleRefers engine.policy rule name) :
    ∃ column result, engine.refer snapshot traced trail name column = .ok result := by
  obtain ⟨tree, htree, hname⟩ := hname
  rw [outcomeOn_eq_bind, htree] at h
  rw [refer_eq_follow]
  exact Expression.exists_refer_of_outcome h hname

/-- A rule that fails with a fault of a reference fails with one of its references.

**Proof sketch.** A rule without a tree fails with an error of reading, and a tree that fails by
itself has an error of its own, neither of which comes from a reference. -/
lemma exists_ruleRefers_of_outcomeOn_eq_error {rule : String} {error : RuleError}
    (h : engine.outcomeOn snapshot traced trail rule = .error error)
    (horigin : error.fault.origin = .reference) :
    ∃ name column, snapshot.RuleRefers engine.policy rule name ∧
      engine.refer snapshot traced trail name column = .error error := by
  cases htree : Expression.ofRule snapshot engine.policy rule with
  | error fault =>
    have hprogram : Program.ofRule snapshot engine.policy rule = .error fault := by
      rw [Program.ofRule_eq_map, htree]
      rfl
    rw [outcomeOn, hprogram] at h
    obtain rfl := Except.error.inj h
    rw [(Program.ofRule_fails snapshot engine.policy rule fault hprogram).origin] at horigin
    cases horigin
  | ok tree =>
    rw [outcomeOn_eq_bind, htree] at h
    rcases Expression.outcome_eq_error h with hfails | ⟨name, column, hname, hrefer⟩
    · rw [hfails.origin] at horigin
      cases horigin
    · rw [refer_eq_follow]
      exact ⟨name, column, ⟨tree, htree, hname.refersTo⟩, hrefer⟩

/-- A rule that has an outcome has followed all references of its audience. -/
lemma exists_refer_of_outcomeOn {audience rule name : String} {result : Bool × Trace}
    (hrule : snapshot.rule? audience = some rule)
    (h : engine.outcomeOn snapshot traced trail rule = .ok result)
    (hname : snapshot.Refers engine.policy audience name) :
    ∃ column result, engine.refer snapshot traced trail name column = .ok result :=
  exists_refer_of_ruleRefers h ((Snapshot.refers_iff hrule).1 hname)

/-- A rule that fails with a fault of a reference fails with a reference of its audience. -/
lemma exists_refer_of_outcomeOn_eq_error {audience rule : String} {error : RuleError}
    (hrule : snapshot.rule? audience = some rule)
    (h : engine.outcomeOn snapshot traced trail rule = .error error)
    (horigin : error.fault.origin = .reference) :
    ∃ name column, snapshot.Refers engine.policy audience name ∧
      engine.refer snapshot traced trail name column = .error error := by
  obtain ⟨name, column, hname, hrefer⟩ := exists_ruleRefers_of_outcomeOn_eq_error h horigin
  exact ⟨name, column, (Snapshot.refers_iff hrule).2 hname, hrefer⟩

/-! ## Cycles -/

/-- References come to an end from an audience on if a reference to it has a result.

**Proof sketch.** Induction along the references that are open. The rule of the audience has an
outcome inside the reference, so all of its references have results there. -/
theorem refer_unfolds {name : String} {column : Nat} {result : Bool × Trace}
    (h : engine.refer snapshot traced trail name column = .ok result) :
    snapshot.Unfolds engine.policy name := by
  fun_induction refer engine snapshot traced trail name column generalizing result with
  | case1 | case2 | case3 => cases h
  | case4 trail name column hcyclic hdepth rule hrule ih =>
    have houtcome : engine.outcomeOn snapshot traced (trail.enter name) rule = .ok result := h
    refine .of_refers (Option.isSome_of_mem hrule) fun next hnext => ?_
    obtain ⟨place, inner, hinner⟩ := exists_refer_of_outcomeOn hrule houtcome hnext
    exact ih next place hinner

/-- A reference that is found to be cyclic reaches the audience at fault, and this audience is on
the trail or refers to itself by way of others.

**Proof sketch.** Induction along the references that are open. An audience at fault that was
entered last is the one that was referred to, so the way to it is a cycle. -/
theorem refer_cyclic {name last : String} {column place : Nat}
    (h : engine.refer snapshot traced trail name column = .error ⟨.cyclicReference last, place⟩) :
    ReflTransGen (snapshot.Refers engine.policy) name last ∧
      (last ∈ trail.chain ∨ TransGen (snapshot.Refers engine.policy) last last) := by
  fun_induction refer engine snapshot traced trail name column with
  | case1 trail name column hcyclic =>
    cases h
    exact ⟨.refl, .inl hcyclic⟩
  | case2 | case3 => cases h
  | case4 trail name column hcyclic hdepth rule hrule ih =>
    have houtcome : engine.outcomeOn snapshot traced (trail.enter name) rule =
        .error ⟨.cyclicReference last, place⟩ := h
    obtain ⟨next, inner, hnext, hinner⟩ := exists_refer_of_outcomeOn_eq_error hrule houtcome rfl
    obtain ⟨hreach, hlast⟩ := ih next inner hinner
    refine ⟨.head hnext hreach, ?_⟩
    rcases hlast with hlast | hcycle
    · rcases List.mem_cons.1 hlast with rfl | hlast
      · exact .inr (.head' hnext hreach)
      · exact .inl hlast
    · exact .inr hcycle

/-- **Cycles are detected, and nothing else is.** If there is a report on an audience, then all
audiences that it reaches by references are registered and none of them lies on a cycle. If the
report fails because a reference is cyclic, then the audience reaches the one at fault, which lies
on a cycle.

**Proof sketch.** If there is a report, then the rule of the audience has an outcome, so each of its
references has one, and all that can be reached unfolds, by `Targeting.Engine.refer_unfolds`. If a
cycle stops it, the error is that of a reference, and `Targeting.Engine.refer_cyclic` finds the
audience on a cycle or on the trail, which has the audience of the report alone. -/
theorem report_detects_cycles (engine : Engine) (snapshot : Snapshot) (audience : String) :
    (∀ report, engine.report snapshot audience = .ok report →
      ∀ name, ReflTransGen (snapshot.Refers engine.policy) audience name →
        (snapshot.rule? name).isSome = true ∧
          ¬ TransGen (snapshot.Refers engine.policy) name name) ∧
    ∀ name column,
      engine.report snapshot audience = .error (.rule ⟨.cyclicReference name, column⟩) →
      ReflTransGen (snapshot.Refers engine.policy) audience name ∧
        TransGen (snapshot.Refers engine.policy) name name := by
  constructor
  · intro report h name hname
    obtain ⟨rule, program, hrule, -, houtcome, -⟩ := report_eq_ok_iff.1 h
    have hunfolds : snapshot.Unfolds engine.policy audience :=
      .of_refers (Option.isSome_of_mem hrule) fun next hnext => by
        obtain ⟨place, inner, hinner⟩ := exists_refer_of_outcomeOn hrule houtcome hnext
        exact refer_unfolds hinner
    exact ⟨hunfolds.registered name hname, hunfolds.acyclic name hname⟩
  · intro name column h
    obtain ⟨rule, hrule, -, houtcome⟩ := report_eq_error_iff.1 h
    obtain ⟨next, place, hnext, hrefer⟩ := exists_refer_of_outcomeOn_eq_error hrule houtcome rfl
    obtain ⟨hreach, hname⟩ := refer_cyclic hrefer
    refine ⟨.head hnext hreach, ?_⟩
    rcases hname with hroot | hcycle
    · -- the trail of the report has no other audience than its own
      unfold Trail.root at hroot
      split_ifs at hroot
      · cases hroot
      · obtain rfl := List.mem_singleton.1 hroot
        exact .head' hnext hreach
    · exact hcycle

/-- Two ways to one audience are no cycle, whichever side the attribute stands on and whether the
name is written or computed; and a cycle that is only entered is found at the audience on it.

**Proof sketch.** Both reports are computed. That there is no cycle in the one case, and that there
is one in the other, is the theorem. -/
theorem report_detects_cycles_diamond :
    let snapshot : Snapshot :=
      { role := "d"
        rules := .ofList
          [("a", "Audience == 'b' && 'c' == Audience"), ("b", "Audience == 'd'"),
            ("c", "Audience == Role"), ("d", "'x' == 'x'"),
            ("p", "'x' == 'x' || Audience == 'q'"), ("q", "(Audience != ('q'))")] }
    (Engine.report {} snapshot "a").isOk = true ∧
      ¬ TransGen (snapshot.Refers .lenient) "a" "a" ∧
      Engine.report {} snapshot "p" = .error (.rule ⟨.cyclicReference "q", 11⟩) ∧
      TransGen (snapshot.Refers .lenient) "q" "q" := by
  intro snapshot
  have hdiamond : (Engine.report {} snapshot "a").isOk = true := by
    unfold snapshot
    decide +kernel
  have hcycle : Engine.report {} snapshot "p" = .error (.rule ⟨.cyclicReference "q", 11⟩) := by
    unfold snapshot
    decide +kernel
  refine ⟨hdiamond, ?_, hcycle, ((report_detects_cycles {} snapshot "p").2 "q" 11 hcycle).2⟩
  cases hreport : Engine.report {} snapshot "a" with
  | error error => rw [hreport] at hdiamond; cases hdiamond
  | ok report => exact ((report_detects_cycles {} snapshot "a").1 report hreport "a" .refl).2

end Engine

end Targeting
