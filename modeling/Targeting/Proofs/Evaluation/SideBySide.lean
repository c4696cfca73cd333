import Mathlib.Tactic.SplitIfs
import Targeting.Proofs.Evaluation.Simulation

/-!
# Two engines side by side

Two evaluations of the same rule may differ in the engine, in the snapshot and in the trail. They
do the same as long as variables have the same operands, the rules on the way have the same program
and references are entered in the same way; then so do the rules that they refer to, however deep
references nest.

## Main definitions

* `Targeting.Engine.entry` — the rule that a reference comes to, or the fault that stops it.
* `Targeting.Engine.Alike` — engines and snapshots in which references are entered alike.
* `Targeting.ReportError.Excused` — the errors of reports that stem from excused faults.

## Main results

* `Targeting.Engine.Alike.refer` — references follow one another.
* `Targeting.Engine.Alike.outcome`, `Targeting.Engine.Alike.report` — so do rules and reports.
-/

set_option autoImplicit false

namespace Targeting

/-! ## Entering references -/

/-- The rule of an audience, or the fault of a reference to an audience without one. -/
def Snapshot.findRule (snapshot : Snapshot) (name : String) : Except Fault String :=
  match snapshot.rule? name with
  | none => .error (.unknownAudience name)
  | some rule => .ok rule

/-- The rule of a registered audience is found. -/
lemma Snapshot.findRule_eq_ok_iff {snapshot : Snapshot} {name rule : String} :
    snapshot.findRule name = .ok rule ↔ snapshot.rule? name = some rule := by
  unfold findRule
  split <;> simp_all

namespace Engine

/-- The rule that a reference to an audience comes to on a trail, or the fault that stops it. A
cycle is found before the limit, and the limit before an audience without a rule. -/
def entry (engine : Engine) (snapshot : Snapshot) (trail : Trail) (name : String) :
    Except Fault String :=
  if name ∈ trail.chain then .error (.cyclicReference name)
  else if engine.depthLimit ≤ trail.depth then .error (.depthExceeded engine.depthLimit)
  else snapshot.findRule name

section Entry

variable {snapshot : Snapshot} {trail : Trail} {name : String}

/-- A cycle stops a reference. -/
lemma entry_of_mem (engine : Engine) (hcyclic : name ∈ trail.chain) :
    engine.entry snapshot trail name = .error (.cyclicReference name) := if_pos hcyclic

/-- The limit stops a reference that is no cycle. -/
lemma entry_of_le (engine : Engine) (hcyclic : name ∉ trail.chain)
    (hdepth : engine.depthLimit ≤ trail.depth) :
    engine.entry snapshot trail name = .error (.depthExceeded engine.depthLimit) := by
  rw [entry, if_neg hcyclic, if_pos hdepth]

/-- Otherwise the rule of the audience is looked up. -/
lemma entry_of_lt (engine : Engine) (hcyclic : name ∉ trail.chain)
    (hdepth : trail.depth < engine.depthLimit) :
    engine.entry snapshot trail name = snapshot.findRule name := by
  rw [entry, if_neg hcyclic, if_neg (Nat.not_le.2 hdepth)]

/-- A reference is entered exactly when neither a cycle nor the limit stops it and the audience has
a rule. -/
lemma entry_eq_ok_iff {engine : Engine} {rule : String} :
    engine.entry snapshot trail name = .ok rule ↔
      name ∉ trail.chain ∧ trail.depth < engine.depthLimit ∧ snapshot.rule? name = some rule := by
  by_cases hcyclic : name ∈ trail.chain
  · simp [entry_of_mem engine hcyclic, hcyclic]
  rcases Nat.lt_or_ge trail.depth engine.depthLimit with hdepth | hdepth
  · simp [entry_of_lt engine hcyclic hdepth, hcyclic, hdepth, Snapshot.findRule_eq_ok_iff]
  · simp [entry_of_le engine hcyclic hdepth, Nat.not_lt.2 hdepth]

end Entry

/-- A reference comes to the rule of the audience inside the reference, if it is entered. -/
lemma refer_eq_bind (engine : Engine) (snapshot : Snapshot) (traced : Bool) (trail : Trail)
    (name : String) (column : Nat) :
    engine.refer snapshot traced trail name column =
      (engine.entry snapshot trail name).mapError (⟨·, column⟩) >>=
        engine.outcomeOn snapshot traced (trail.enter name) := by
  rw [refer, entry]
  split_ifs with hcyclic hdepth
  · rfl
  · rfl
  · unfold Snapshot.findRule
    split <;> simp_all <;> rfl

/-! ## Engines that are alike -/

/-- Whether a rule has the same program for two engines in two snapshots, or the same error, or one
by an excused fault for the second. -/
def SameProgram (excused : Fault → Prop) (engine engine' : Engine) (snapshot snapshot' : Snapshot)
    (rule : String) : Prop :=
  Follows (excused ·.fault) Eq (Program.ofRule snapshot engine.policy rule)
    (Program.ofRule snapshot' engine'.policy rule)

/-- Engines and snapshots in which rules do alike on trails that are related: variables have the
same operands, and references are entered alike, which leads to the same rule and to trails that
are related again. -/
structure Alike (excused : Fault → Prop) (R : Trail → Trail → Prop) (engine engine' : Engine)
    (snapshot snapshot' : Snapshot) : Prop where
  operand : ∀ v, Operand.ofVariable snapshot v = Operand.ofVariable snapshot' v
  entry : ∀ {trail trail'}, R trail trail' → ∀ name,
    Follows excused (fun rule rule' =>
        (rule = rule' ∧ engine.SameProgram excused engine' snapshot snapshot' rule) ∧
          R (trail.enter name) (trail'.enter name))
      (engine.entry snapshot trail name) (engine'.entry snapshot' trail' name)

end Engine

/-- Whether steps correspond however they are put together, where one evaluation records them or
not and another one records them or not. -/
structure Trace.Corresponds (T : Trace → Trace → Prop) (traced traced' : Bool) : Prop where
  nil : T [] []
  append : ∀ {s s' t t'}, T s s' → T t t' → T (s ++ t) (s' ++ t')
  step : ∀ step, T (if traced then [step] else []) (if traced' then [step] else [])

/-- Steps are the same if both evaluations record them, or neither does. -/
lemma Trace.corresponds_eq (traced : Bool) : Corresponds Eq traced traced :=
  ⟨rfl, fun hs ht => hs ▸ ht ▸ rfl, fun _ => rfl⟩

/-- Steps are of no account. -/
lemma Trace.corresponds_any (traced traced' : Bool) :
    Corresponds (fun _ _ => True) traced traced' :=
  ⟨trivial, fun _ _ => trivial, fun _ => trivial⟩

/-- Results with the same truth value and the same steps are the same. -/
lemma SameResult.eq {a b : Bool × Trace} (h : SameResult Eq a b) : a = b := Prod.ext h.1 h.2

namespace Engine.Alike

variable {excused : Fault → Prop} {R : Trail → Trail → Prop} {engine engine' : Engine}
  {snapshot snapshot' : Snapshot} {T : Trace → Trace → Prop} {traced traced' : Bool}
  {trail trail' : Trail}

/-- Engines with the same limit are alike on equal trails if variables have the same operands and
the same rules are found, with the same programs.

**Proof sketch.** An entry is refused on a cycle and at the limit alike, as the trails and the
limits are the same. Otherwise it is the rule that is found. -/
lemma of_findRule (hlimit : engine.depthLimit = engine'.depthLimit)
    (hoperand : ∀ v, Operand.ofVariable snapshot v = Operand.ofVariable snapshot' v)
    (hrule : ∀ name, Follows excused
      (fun rule rule' => rule = rule' ∧ engine.SameProgram excused engine' snapshot snapshot' rule)
      (snapshot.findRule name) (snapshot'.findRule name)) :
    Alike excused Eq engine engine' snapshot snapshot' := by
  refine ⟨hoperand, ?_⟩
  rintro trail _ rfl name
  unfold Engine.entry
  rw [← hlimit]
  split_ifs
  · exact .error _
  · exact .error _
  · have hfound := hrule name
    generalize snapshot.findRule name = x, snapshot'.findRule name = x' at hfound
    cases hfound with
    | ok h => exact .ok ⟨h, rfl⟩
    | error fault => exact .error fault
    | excused hfault => exact .excused hfault

/-- Programs do alike on trails on which references follow one another. -/
lemma around (h : Alike excused R engine engine' snapshot snapshot')
    (hT : Trace.Corresponds T traced traced')
    (hrefer : ∀ name column, Follows (excused ·.fault) (SameResult T)
      (engine.refer snapshot traced trail name column)
      (engine'.refer snapshot' traced' trail' name column)) :
    (engine.around snapshot traced trail).Alike (excused ·.fault) T
      (engine'.around snapshot' traced' trail') :=
  ⟨h.operand, hrefer, hT.nil, hT.append, hT.step⟩

/-- A rule with the same program does alike on trails on which references follow one another. -/
lemma outcomeOn_of_refer (h : Alike excused R engine engine' snapshot snapshot')
    (hT : Trace.Corresponds T traced traced')
    (hrefer : ∀ name column, Follows (excused ·.fault) (SameResult T)
      (engine.refer snapshot traced trail name column)
      (engine'.refer snapshot' traced' trail' name column))
    {rule : String} (hrule : engine.SameProgram excused engine' snapshot snapshot' rule) :
    Follows (excused ·.fault) (SameResult T) (engine.outcomeOn snapshot traced trail rule)
      (engine'.outcomeOn snapshot' traced' trail' rule) := by
  refine hrule.bind ?_
  rintro program _ rfl
  exact Program.outcome_follows (h.around hT hrefer) program

/-- **References do alike side by side.** On trails that are related, what a reference comes to for
the second engine follows what it comes to for the first one.

**Proof sketch.** Induction on the number of audiences that are not on the second trail. If the
reference is entered, then both engines come to the same rule, whose programs are the same, and
inside which references follow one another by the hypothesis. -/
theorem refer (h : Alike excused R engine engine' snapshot snapshot')
    (hT : Trace.Corresponds T traced traced') (hR : R trail trail') (name : String)
    (column : Nat) :
    Follows (excused ·.fault) (SameResult T) (engine.refer snapshot traced trail name column)
      (engine'.refer snapshot' traced' trail' name column) := by
  induction hn : (snapshot'.unvisited trail'.chain).length using Nat.strongRecOn
    generalizing trail trail' name column with
  | ind n ih =>
    rw [refer_eq_bind, refer_eq_bind]
    refine Follows.bind_of_eq_ok ((h.entry hR name).mapError fun _ hfault => ?_) ?_
    · exact hfault
    rintro rule _ - hentered ⟨⟨rfl, hprogram⟩, hnext⟩
    obtain ⟨hcyclic, -, hrule⟩ := entry_eq_ok_iff.1 (mapError_eq_ok_iff.1 hentered)
    have hfewer := Snapshot.length_unvisited_cons_lt hrule hcyclic
    exact h.outcomeOn_of_refer hT (fun inner place => ih _ (hn ▸ hfewer) hnext inner place rfl)
      hprogram

/-- On trails that are related, the outcome of a rule for the second engine follows that for the
first one. -/
theorem outcomeOn (h : Alike excused R engine engine' snapshot snapshot')
    (hT : Trace.Corresponds T traced traced') (hR : R trail trail') {rule : String}
    (hrule : engine.SameProgram excused engine' snapshot snapshot' rule) :
    Follows (excused ·.fault) (SameResult T) (engine.outcomeOn snapshot traced trail rule)
      (engine'.outcomeOn snapshot' traced' trail' rule) :=
  h.outcomeOn_of_refer hT (h.refer hT hR) hrule

/-- The outcome of a rule as that of the snapshot's own audience for the second engine follows that
for the first one. -/
theorem outcome (h : Alike excused R engine engine' snapshot snapshot')
    (haudience : snapshot.audience = snapshot'.audience)
    (hR : ∀ audience, R (.root audience) (.root audience)) {rule : String}
    (hrule : engine.SameProgram excused engine' snapshot snapshot' rule) :
    Follows (excused ·.fault) Eq (engine.outcome snapshot rule)
      (engine'.outcome snapshot' rule) := by
  unfold Engine.outcome Engine.outcomeFor
  rw [← haudience]
  exact (h.outcomeOn (Trace.corresponds_eq false) (hR _) hrule).map fun _ _ hresult => hresult.1

end Engine.Alike

/-! ## Reports -/

/-- Whether the error of a report stems from an excused fault: of the rule, or of a reference to the
audience itself. -/
def ReportError.Excused (excused : Fault → Prop) : ReportError → Prop
  | rule error => excused error.fault
  | notFound audience => excused (.unknownAudience audience)
  | empty _ => False

namespace Engine.Alike

variable {excused : Fault → Prop} {R : Trail → Trail → Prop} {engine engine' : Engine}
  {snapshot snapshot' : Snapshot}

/-- **Reports do alike side by side.** If the same rule of an audience is found, with the same
program, then its report for the second engine follows that for the first one, with the same steps
and names.

**Proof sketch.** Both reports look for the rule of the audience. Where it is found in both, the
programs are the same up to what is excused, and their outcomes follow each other, since references
do, by `Targeting.Engine.Alike.refer`. -/
theorem report (h : Alike excused R engine engine' snapshot snapshot')
    (htraced : engine.traced = engine'.traced) {audience : String}
    (hR : R (.root audience) (.root audience))
    (hrule : Follows excused
      (fun rule rule' => rule = rule' ∧ engine.SameProgram excused engine' snapshot snapshot' rule)
      (snapshot.findRule audience) (snapshot'.findRule audience)) :
    Follows (ReportError.Excused excused) Eq (engine.report snapshot audience)
      (engine'.report snapshot' audience) := by
  unfold Snapshot.findRule at hrule
  unfold Engine.report
  cases hfound : snapshot.rule? audience <;> cases hfound' : snapshot'.rule? audience <;>
    simp only [hfound, hfound'] at hrule
  · exact .error _
  · nomatch hrule
  · cases hrule with
    | excused hfault => exact .excused hfault
  · cases hrule with
    | ok hsame =>
      obtain ⟨rfl, hprogram⟩ := hsame
      dsimp only
      split_ifs
      · exact .error _
      · have hrefer := h.refer (Trace.corresponds_eq engine.traced) hR
        refine Follows.mapError (Follows.bind hprogram ?_) fun _ hfault => ?_
        · rintro program _ rfl
          rw [← htraced]
          have haround := h.around (Trace.corresponds_eq _) hrefer
          refine (Program.outcome_follows haround program).bind ?_
          rintro result _ hresult
          obtain rfl := hresult.eq
          exact .ok rfl
        · exact hfault

end Engine.Alike

end Targeting
