import Targeting.Evaluation.Operand
import Targeting.Rule.Program

/-!
# The machine that evaluates programs

A program is evaluated on a stack of operands. What a reference to another audience yields is left
to a parameter, so that the machine knows nothing of other rules.

## Main definitions

* `Targeting.TraceStep` — the record of one operator.
* `Targeting.Outcome` — what an evaluation yields.
* `Targeting.Surroundings` — what an evaluation depends on besides the program.
* `Targeting.Surroundings.operate` — the outcome of an operator.
* `Targeting.Program.outcome` — the outcome of a program.
-/

set_option autoImplicit false

namespace Targeting

/-- The record of one operator: its operands as they were written, and its result. -/
structure TraceStep where
  left : Operand
  op : Operator
  right : Operand
  result : Bool
deriving DecidableEq, Inhabited

/-- A step as a line of text. -/
def TraceStep.text (step : TraceStep) : String :=
  step.left.render ++ " " ++ step.op.symbol ++ " " ++ step.right.render ++ " => " ++
    truthText step.result

/-- The records of the operators, in the order of their evaluation. -/
abbrev Trace := List TraceStep

/-- What an evaluation yields: a truth value and the steps that led to it, or the first error. -/
abbrev Outcome := Except RuleError (Bool × Trace)

/-- What an evaluation depends on besides the program: the snapshot, whether steps are recorded, and
the outcome of a reference to an audience by the operator at a column. -/
structure Surroundings where
  snapshot : Snapshot
  traced : Bool
  refer : String → Nat → Outcome

namespace Surroundings

/-! ## Operators -/

/-- The outcome of a comparison of two operands, the subject first; none if it does not apply to
them. Any comparison of the audience attribute with a text is a reference to the audience of that
name. -/
def compare? (around : Surroundings) (op : Operator) (subject other : Operand) (column : Nat) :
    Option Outcome :=
  match subject with
  | .audience =>
    match other.value? with
    | some (.text name) => some (around.refer name column)
    | _ => none
  | _ => do
    let result ← Value.compare? op (← subject.value?) (← other.value?)
    return .ok (result, [])

/-- The outcome of an operator on two operands, the subject first; none if it does not apply to
them. A conjunction or disjunction looks at both operands always. -/
def combine? (around : Surroundings) (op : Operator) (subject other : Operand) (column : Nat) :
    Option Outcome :=
  match op with
  | .and => do return .ok ((← subject.truth?) && (← other.truth?), [])
  | .or => do return .ok ((← subject.truth?) || (← other.truth?), [])
  | _ => around.compare? op subject other column

/-- The outcome of an operator at a column on two operands as they were written. The step of the
operator comes after the steps of the audience that it refers to. -/
def operate (around : Surroundings) (op : Operator) (left right : Operand) (column : Nat) :
    Outcome :=
  let (subject, other) := Operand.orient left right
  match around.combine? op subject other column with
  | none => .error ⟨.unsupportedComparison op left.render right.render, column⟩
  | some outcome => do
    let (result, steps) ← outcome
    return (result, if around.traced then steps ++ [⟨left, op, right, result⟩] else steps)

end Surroundings

/-! ## The machine -/

/-- The operands on the stack, the last one first, and the steps so far. -/
structure Machine where
  stack : List Operand := []
  trace : Trace := []
deriving DecidableEq, Inhabited

namespace Machine

/-- The machine with one more operand. -/
def push (machine : Machine) (operand : Operand) : Machine :=
  { machine with stack := operand :: machine.stack }

/-- The machine after one token. The right operand of an operator is on top of the left one. -/
def next (around : Surroundings) (machine : Machine) (token : Located Token) :
    Except RuleError Machine :=
  match token.value with
  | .text s => .ok (machine.push (.literal (.text s)))
  | .truth b => .ok (machine.push (.literal (.truth b)))
  | .variable v => .ok (machine.push (.ofVariable around.snapshot v))
  | .operator op =>
    match machine.stack with
    | right :: left :: stack => do
      let (result, steps) ← around.operate op left right token.column
      return ⟨.literal (.truth result) :: stack, machine.trace ++ steps⟩
    | _ => .error ⟨.missingOperand op, token.column⟩
  | .opening | .closing => .ok machine

/-- The outcome of a machine after the last token, which stands at `last`: the only operand left, as
a condition. -/
def finish (machine : Machine) (last : Nat) : Outcome :=
  match machine.stack with
  | [] => .error ⟨.emptyExpression, 1⟩
  | [only] =>
    match only.truth? with
    | some result => .ok (result, machine.trace)
    | none => .error ⟨.nonBooleanResult only.render, last⟩
  | _ => .error ⟨.expectedOperator, last⟩

end Machine

/-- The outcome of a program. -/
def Program.outcome (program : Program) (around : Surroundings) : Outcome := do
  let machine ← program.code.foldlM (Machine.next around) {}
  machine.finish ((program.code.getLast?.map (·.column)).getD 1)

end Targeting
