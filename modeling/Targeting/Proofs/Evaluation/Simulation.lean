import Targeting.Evaluation.Engine
import Targeting.Proofs.Failure

/-!
# Programs in different surroundings

The machine looks at its surroundings in three places: at the operands of variables, at references,
and where it records steps. So if variables have the same operands in two surroundings, and what
references come to in the one follows what they come to in the other, then the same holds of whole
programs.

## Main definitions

* `Targeting.Operator.reference?`, `Targeting.Operator.result?` — what an operator does on two
  operands: it refers to an audience, or it has a result by itself.
* `Targeting.SameResult` — outcomes with the same truth value and steps that correspond.
* `Targeting.Surroundings.Alike` — surroundings of which one follows the other.

## Main results

* `Targeting.Surroundings.combine?_eq` — an operator refers or has a result by itself.
* `Targeting.Program.outcome_follows` — the outcome of a program follows that in other surroundings.
-/

set_option autoImplicit false

namespace Targeting

/-! ## Operators -/

namespace Operator

/-- The audience that an operator refers to, the subject first: any comparison of the audience
attribute with a text is a reference. -/
def reference? (op : Operator) (subject other : Operand) : Option String :=
  if op.isComparison ∧ subject = .audience then
    match other.value? with
    | some (.text name) => some name
    | _ => none
  else none

/-- The result of an operator by itself, the subject first; none if it has none. -/
def result? (op : Operator) (subject other : Operand) : Option Bool :=
  match op with
  | .and => do return (← subject.truth?) && (← other.truth?)
  | .or => do return (← subject.truth?) || (← other.truth?)
  | _ => subject.value?.bind fun a => other.value?.bind fun b => Value.compare? op a b

end Operator

namespace Surroundings

/-- A comparison of another operand than the audience attribute is one of values. -/
lemma compare?_of_ne_audience (around : Surroundings) (op : Operator) {subject : Operand}
    (h : subject ≠ .audience) (other : Operand) (column : Nat) :
    around.compare? op subject other column =
      (subject.value?.bind fun a => other.value?.bind fun b => Value.compare? op a b).map
        fun result => .ok (result, []) := by
  rw [compare?.eq_2 _ _ _ _ _ h]
  cases subject.value? with
  | none => rfl
  | some a =>
    cases other.value? with
    | none => rfl
    | some b =>
      show Option.bind (Value.compare? op a b) _ = Option.map _ (Value.compare? op a b)
      cases Value.compare? op a b <;> rfl

/-- An operator either refers to an audience or has a result by itself, if any.

**Proof sketch.** By cases on the operator. Connectives refer to nothing. A comparison refers to an
audience if the subject is the audience attribute and the other operand names one, and has its
result by itself otherwise. -/
theorem combine?_eq (around : Surroundings) (op : Operator) (subject other : Operand)
    (column : Nat) :
    around.combine? op subject other column =
      match op.reference? subject other with
      | some name => some (around.refer name column)
      | none => (op.result? subject other).map fun result => .ok (result, []) := by
  cases op with
  | and | or =>
    rw [Operator.reference?, if_neg (fun h => Bool.false_ne_true h.1)]
    simp only [combine?, Operator.result?]
    cases subject.truth? <;> cases other.truth? <;> rfl
  | equal | notEqual | startsWith | endsWith =>
    by_cases hsubject : subject = .audience
    · subst hsubject
      rw [Operator.reference?, if_pos ⟨rfl, rfl⟩]
      simp only [combine?, compare?]
      cases other.value? with
      | none => rfl
      | some value => cases value <;> rfl
    · rw [Operator.reference?, if_neg (fun h => hsubject h.2)]
      exact compare?_of_ne_audience around _ hsubject other column
end Surroundings

/-! ## Surroundings that are alike -/

/-- Whether two outcomes have the same truth value, and steps that correspond. -/
def SameResult (T : Trace → Trace → Prop) (a b : Bool × Trace) : Prop := a.1 = b.1 ∧ T a.2 b.2

/-- Whether two machines have the same operands on the stack, and steps that correspond. -/
def Machine.Alike (T : Trace → Trace → Prop) (m m' : Machine) : Prop :=
  m.stack = m'.stack ∧ T m.trace m'.trace

/-- Surroundings in which programs do alike: variables have the same operands, what references come
to in the second follows what they come to in the first, and steps correspond however they are put
together. -/
structure Surroundings.Alike (excused : RuleError → Prop) (T : Trace → Trace → Prop)
    (around around' : Surroundings) : Prop where
  operand : ∀ v, Operand.ofVariable around.snapshot v = Operand.ofVariable around'.snapshot v
  refer : ∀ name column,
    Follows excused (SameResult T) (around.refer name column) (around'.refer name column)
  nil : T [] []
  append : ∀ {s s' t t'}, T s s' → T t t' → T (s ++ t) (s' ++ t')
  step : ∀ step, T (if around.traced then [step] else []) (if around'.traced then [step] else [])

section Alike

variable {excused : RuleError → Prop} {T : Trace → Trace → Prop} {around around' : Surroundings}

/-- Steps correspond after one more step, which is recorded or not. -/
lemma Surroundings.Alike.record (h : around.Alike excused T around') {steps steps' : Trace}
    (hsteps : T steps steps') (step : TraceStep) :
    T (if around.traced then steps ++ [step] else steps)
      (if around'.traced then steps' ++ [step] else steps') := by
  have hsplit : ∀ (traced : Bool) (steps : Trace), (if traced then steps ++ [step] else steps) =
      steps ++ if traced then [step] else [] := by
    intro traced steps
    cases traced <;> simp
  rw [hsplit, hsplit]
  exact h.append hsteps (h.step step)

/-- An operator does alike in surroundings that are alike.

**Proof sketch.** By cases on whether the operator refers to an audience, which depends on the
operands only. If it does, the references follow each other, and if not, the result depends on the
operands only. -/
lemma Surroundings.operate_follows (h : around.Alike excused T around') (op : Operator)
    (left right : Operand) (column : Nat) :
    Follows excused (SameResult T) (around.operate op left right column)
      (around'.operate op left right column) := by
  unfold operate
  obtain ⟨subject, other⟩ := Operand.orient left right
  dsimp only
  rw [combine?_eq, combine?_eq]
  cases op.reference? subject other with
  | some name =>
    refine (h.refer name column).bind ?_
    rintro ⟨result, steps⟩ ⟨_, steps'⟩ ⟨rfl, hsteps⟩
    exact .ok ⟨rfl, h.record hsteps _⟩
  | none =>
    cases op.result? subject other with
    | none => exact .error _
    | some result => exact .ok ⟨rfl, h.record h.nil _⟩

/-- A machine does alike after one token.

**Proof sketch.** By cases on the token. A variable has the same operand in both surroundings, and
an operator on the same operands does alike, by `Targeting.Surroundings.operate_follows`. -/
lemma Machine.next_follows (h : around.Alike excused T around') {m m' : Machine}
    (hm : m.Alike T m') (token : Located Token) :
    Follows excused (Machine.Alike T) (m.next around token) (m'.next around' token) := by
  obtain ⟨stack, trace⟩ := m
  obtain ⟨stack', trace'⟩ := m'
  obtain ⟨rfl, htrace⟩ : stack = stack' ∧ T trace trace' := hm
  obtain ⟨value, column⟩ := token
  cases value with
  | text s | truth b => exact .ok ⟨rfl, htrace⟩
  | «variable» v =>
    refine .ok ⟨?_, htrace⟩
    show Operand.ofVariable _ v :: stack = Operand.ofVariable _ v :: stack
    rw [h.operand]
  | opening | closing => exact .ok ⟨rfl, htrace⟩
  | operator op =>
    match stack with
    | [] | [_] => exact .error _
    | right :: left :: stack =>
      refine (Surroundings.operate_follows h op left right column).bind ?_
      rintro ⟨result, steps⟩ ⟨_, steps'⟩ ⟨rfl, hsteps⟩
      exact .ok ⟨rfl, h.append htrace hsteps⟩

/-- A machine does alike after any number of tokens. -/
lemma Machine.foldlM_follows (h : around.Alike excused T around') (code : List (Located Token))
    {m m' : Machine} (hm : m.Alike T m') :
    Follows excused (Machine.Alike T) (code.foldlM (Machine.next around) m)
      (code.foldlM (Machine.next around') m') := by
  induction code generalizing m m' with
  | nil => exact .ok hm
  | cons token code ih =>
    rw [List.foldlM_cons, List.foldlM_cons]
    exact (Machine.next_follows h hm token).bind fun _ _ hnext => ih hnext

/-- A machine ends alike. -/
lemma Machine.finish_follows {m m' : Machine} (hm : m.Alike T m') (last : Nat) :
    Follows excused (SameResult T) (m.finish last) (m'.finish last) := by
  obtain ⟨hstack, htrace⟩ := hm
  unfold finish
  rw [← hstack]
  split
  · exact .error _
  · split
    · exact .ok ⟨rfl, htrace⟩
    · exact .error _
  · exact .error _

/-- **Programs do alike in surroundings that are alike.** The outcome of a program follows its
outcome in the other surroundings: one token after the other keeps the same operands on the stack
and steps that correspond. -/
theorem Program.outcome_follows (h : around.Alike excused T around') (program : Program) :
    Follows excused (SameResult T) (program.outcome around) (program.outcome around') :=
  (Machine.foldlM_follows h program.code ⟨rfl, h.nil⟩).bind fun _ _ hm =>
    Machine.finish_follows hm _

end Alike

end Targeting
