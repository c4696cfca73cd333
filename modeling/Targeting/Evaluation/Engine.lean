import Targeting.Evaluation.Machine

/-!
# The engine

A rule is evaluated in a snapshot. Where it refers to another audience, the rule of that audience is
evaluated in the same snapshot. A reference must not lead back to an audience that is still being
evaluated, and references nest only so deep.

Each reference that is followed adds a registered audience to those that are being evaluated, and
never one that is among them already. So references come to an end whatever the limit is.

## Main definitions

* `Targeting.Engine` — how rules are evaluated: field policy, limit, recording of steps.
* `Targeting.Trail` — the audiences that are being evaluated.
* `Targeting.Engine.refer` — the outcome of a reference.
* `Targeting.Engine.outcome` — the outcome of a rule.
* `Targeting.Engine.report` — the report on an audience.
-/

set_option autoImplicit false

namespace Targeting

/-- How rules are evaluated. -/
structure Engine where
  policy : FieldPolicy := .lenient
  /-- How many references may be open at once. -/
  depthLimit : Nat := 16
  /-- Whether reports have the steps of the evaluation. -/
  traced : Bool := false
deriving DecidableEq, Inhabited

/-- The audiences that are being evaluated, the innermost first, and how many of them were reached
by reference. -/
structure Trail where
  chain : List String
  depth : Nat
deriving DecidableEq, Inhabited

namespace Trail

/-- The trail of an audience that is evaluated for itself; the empty name stands for none. -/
def root (audience : String) : Trail := ⟨if audience = "" then [] else [audience], 0⟩

/-- The trail inside a reference. -/
def enter (trail : Trail) (name : String) : Trail := ⟨name :: trail.chain, trail.depth + 1⟩

end Trail

/-- The registered audiences that are not being evaluated. -/
def Snapshot.unvisited (snapshot : Snapshot) (chain : List String) : List String :=
  snapshot.rules.keys.filter (· ∉ chain)

/-- A registered audience that starts to be evaluated is one less that is not. -/
theorem Snapshot.length_unvisited_cons_lt {snapshot : Snapshot} {chain : List String}
    {name rule : String} (registered : snapshot.rule? name = some rule) (outside : name ∉ chain) :
    (snapshot.unvisited (name :: chain)).length < (snapshot.unvisited chain).length := by
  have mem : name ∈ snapshot.rules.keys := Dict.mem_keys_iff.2 (Option.isSome_of_mem registered)
  have mem : name ∈ snapshot.unvisited chain := List.mem_filter.2 ⟨mem, by simpa using outside⟩
  have split :
      snapshot.unvisited (name :: chain) = (snapshot.unvisited chain).filter (· ≠ name) := by
    simp only [unvisited, List.filter_filter]
    exact List.filter_congr fun x _ => by simp
  rw [split]
  exact List.length_filter_lt_length_iff_exists.2 ⟨name, mem, by simp⟩

namespace Engine

/-! ## References -/

/-- The outcome of a reference to an audience by the operator at a column: that of the audience's
rule, in which further references are followed from the longer trail. -/
def refer (engine : Engine) (snapshot : Snapshot) (traced : Bool) (trail : Trail) (name : String)
    (column : Nat) : Outcome :=
  if _cyclic : name ∈ trail.chain then .error ⟨.cyclicReference name, column⟩
  else if engine.depthLimit ≤ trail.depth then .error ⟨.depthExceeded engine.depthLimit, column⟩
  else
    match _registered : snapshot.rule? name with
    | none => .error ⟨.unknownAudience name, column⟩
    | some rule => do
      let program ← Program.ofRule snapshot engine.policy rule
      program.outcome ⟨snapshot, traced, fun inner column =>
        refer engine snapshot traced (trail.enter name) inner column⟩
termination_by (snapshot.unvisited trail.chain).length
decreasing_by exact Snapshot.length_unvisited_cons_lt _registered _cyclic

/-- What evaluations on a trail depend on. -/
def around (engine : Engine) (snapshot : Snapshot) (traced : Bool) (trail : Trail) : Surroundings :=
  ⟨snapshot, traced, engine.refer snapshot traced trail⟩

/-! ## Rules -/

/-- The outcome of a rule on a trail, with its steps. -/
def outcomeOn (engine : Engine) (snapshot : Snapshot) (traced : Bool) (trail : Trail)
    (rule : String) : Outcome := do
  let program ← Program.ofRule snapshot engine.policy rule
  program.outcome (engine.around snapshot traced trail)

/-- The outcome of a rule as that of an audience. -/
def outcomeFor (engine : Engine) (snapshot : Snapshot) (audience rule : String) :
    Except RuleError Bool :=
  (engine.outcomeOn snapshot false (.root audience) rule).map (·.1)

/-- The outcome of a rule as that of the snapshot's own audience. -/
def outcome (engine : Engine) (snapshot : Snapshot) (rule : String) : Except RuleError Bool :=
  engine.outcomeFor snapshot snapshot.audience rule

end Engine

/-! ## Reports -/

/-- What an evaluation has shown of an audience. -/
structure Report where
  audience : String
  matched : Bool
  /-- The steps of the evaluation, where they are recorded. -/
  trace : Trace
  /-- The names of the variables in the audience's own rule. -/
  names : NameSet
deriving DecidableEq, Inhabited

/-- Why there is no report on an audience. -/
inductive ReportError where
  | rule (error : RuleError)
  | notFound (audience : String)
  | empty (audience : String)
deriving DecidableEq, Inhabited

/-- The wording for an audience whose rule is blank. -/
def emptyRuleMessage (audience : String) : String :=
  .join ["受众 ", audience, " 的规则为空"]

/-- The wording of an error. -/
def ReportError.message : ReportError → String
  | rule error => .join ["规则解析失败: ", error.message]
  | notFound audience => .join ["规则未找到: ", audience]
  | empty audience => emptyRuleMessage audience

/-- The report on an audience with a rule that is not blank. -/
def Engine.report (engine : Engine) (snapshot : Snapshot) (audience : String) :
    Except ReportError Report :=
  match snapshot.rule? audience with
  | none => .error (.notFound audience)
  | some rule =>
    if isBlank rule then .error (.empty audience)
    else Except.mapError .rule do
      let program ← Program.ofRule snapshot engine.policy rule
      let (matched, trace) ←
        program.outcome (engine.around snapshot engine.traced (.root audience))
      return ⟨audience, matched, trace, program.names⟩

end Targeting
