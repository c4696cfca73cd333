import Targeting.Proofs.Evaluation.Reference
import Targeting.Proofs.Verdicts.Memory

/-!
# Verdicts and reports

With the engine as judge, an audience holds exactly when the report on it shows that it is matched.
The verdicts judge its rule without steps and swallow every error, the report may record steps and
has an error of its own for each way to fail; both evaluate the same rule on the same trail.

## Main definitions

* `Targeting.Engine.confirms` — whether there is a report on an audience, and it is matched.
* `Targeting.Grounds.ofEngine` — what verdicts with the engine as judge rest on.

## Main results

* `Targeting.Engine.exists_report_iff` — a report shows the outcome of the audience's rule.
* `Targeting.Grounds.holds_eq_confirms` — an audience holds exactly when the report on it confirms
  it.
-/

set_option autoImplicit false

namespace Targeting

namespace Engine

/-! ## Engines that record steps -/

/-- Whether an engine records the steps of reports does not change the outcomes of rules. -/
lemma outcomeOn_traced (engine : Engine) (recorded : Bool) (snapshot : Snapshot) (traced : Bool)
    (trail : Trail) (rule : String) :
    outcomeOn { engine with traced := recorded } snapshot traced trail rule =
      engine.outcomeOn snapshot traced trail rule := by
  have halike : Alike (fun _ => False) Eq engine { engine with traced := recorded }
      snapshot snapshot :=
    .of_findRule rfl (fun _ => rfl) fun _ => .refl (fun _ => ⟨rfl, .refl (fun _ => rfl) _⟩) _
  have hfollows := halike.outcomeOn (Trace.corresponds_eq traced) (rfl : trail = trail)
    (.refl (fun _ => rfl) (Program.ofRule snapshot engine.policy rule))
  exact (hfollows.mono fun _ _ => SameResult.eq).eq

/-- A rule comes to a result whether its steps are recorded or not. -/
lemma outcomeOn_result (engine : Engine) (snapshot : Snapshot) (traced traced' : Bool)
    (trail : Trail) (rule : String) {result : Bool} {steps : Trace}
    (h : engine.outcomeOn snapshot traced trail rule = .ok (result, steps)) :
    ∃ steps', engine.outcomeOn snapshot traced' trail rule = .ok (result, steps') := by
  have hmap := engine.outcomeOn_map_fst snapshot traced' traced trail rule
  rw [h] at hmap
  obtain ⟨⟨_, steps'⟩, hother, rfl⟩ := map_eq_ok_iff.1 hmap
  exact ⟨steps', hother⟩

/-! ## Reports -/

/-- A report, with steps or without, shows the outcome of the audience's rule, and there is one
exactly when there is this outcome.

**Proof sketch.** A report has the outcome of the rule on the audience's own trail. By
`Targeting.Engine.outcomeOn_result` this has the same result with steps and without. -/
theorem exists_report_iff (engine : Engine) (recorded : Bool) {snapshot : Snapshot}
    {audience : String} {result : Bool} :
    (∃ report, Engine.report { engine with traced := recorded } snapshot audience = .ok report ∧
        report.matched = result) ↔
      ∃ rule, snapshot.rule? audience = some rule ∧
        engine.outcomeFor snapshot audience rule = .ok result := by
  constructor
  · rintro ⟨report, hreport, rfl⟩
    obtain ⟨rule, program, hrule, -, houtcome, -⟩ := report_eq_ok_iff.1 hreport
    rw [outcomeOn_traced] at houtcome
    obtain ⟨steps, hplain⟩ := engine.outcomeOn_result snapshot recorded false _ rule houtcome
    exact ⟨rule, hrule, map_eq_ok_iff.2 ⟨_, hplain, rfl⟩⟩
  · rintro ⟨rule, hrule, houtcome⟩
    obtain ⟨⟨matched, steps⟩, hplain, rfl⟩ := map_eq_ok_iff.1 houtcome
    obtain ⟨steps', hrecorded⟩ := engine.outcomeOn_result snapshot false recorded _ rule hplain
    obtain ⟨program, hprogram, -⟩ := bind_eq_ok_iff.1 hrecorded
    rw [← outcomeOn_traced engine recorded] at hrecorded
    exact ⟨⟨audience, matched, steps', program.names⟩,
      report_eq_ok_iff.2 ⟨rule, program, hrule, hprogram, hrecorded, rfl, rfl⟩, rfl⟩

/-- Whether there is a report on an audience, and it shows that the audience is matched. -/
def confirms (engine : Engine) (snapshot : Snapshot) (audience : String) : Bool :=
  match engine.report snapshot audience with
  | .ok report => report.matched
  | .error _ => false

/-- An audience is confirmed by a report by which it is matched. -/
lemma confirms_iff {engine : Engine} {snapshot : Snapshot} {audience : String} :
    engine.confirms snapshot audience = true ↔
      ∃ report, engine.report snapshot audience = .ok report ∧ report.matched = true := by
  unfold confirms
  cases engine.report snapshot audience <;> simp

end Engine

namespace Grounds

/-- What verdicts with the engine as judge rest on. -/
def ofEngine (snapshot : Snapshot) (settings : EngineSettings) : Grounds :=
  ⟨snapshot, settings, settings.engine.outcomeFor snapshot⟩

/-- An audience holds exactly when a judgement of its rule is that it does: blank rules have no
program.

**Proof sketch.** Without a rule neither side holds. With one the audience holds if the rule is not
blank and its outcome is favourable, and a rule with an outcome has a program, so it is not blank,
by `Targeting.Engine.isBlank_eq_false_of_ofRule`. -/
lemma holds_ofEngine_iff {snapshot : Snapshot} {settings : EngineSettings} {audience : String} :
    (ofEngine snapshot settings).holds audience = true ↔
      ∃ rule, snapshot.rule? audience = some rule ∧
        settings.engine.outcomeFor snapshot audience rule = .ok true := by
  unfold holds ofEngine
  dsimp only
  split
  · next hrule => simp [hrule]
  · next rule hrule =>
    simp only [hrule, Option.some.injEq, exists_eq_left', Bool.and_eq_true]
    constructor
    · rintro ⟨-, hfavourable⟩
      cases hjudgement : settings.engine.outcomeFor snapshot audience rule with
      | error error => rw [hjudgement] at hfavourable; cases hfavourable
      | ok result => rw [hjudgement] at hfavourable; exact congrArg Except.ok hfavourable
    · intro hjudgement
      obtain ⟨_, houtcome, -⟩ := map_eq_ok_iff.1 hjudgement
      obtain ⟨program, hprogram, -⟩ := bind_eq_ok_iff.1 houtcome
      rw [hjudgement, Engine.isBlank_eq_false_of_ofRule hprogram]
      exact ⟨rfl, rfl⟩

/-- With the engine as judge, an audience holds exactly when the report on it confirms it, whether
the report has steps or not. -/
theorem holds_eq_confirms (snapshot : Snapshot) (settings : EngineSettings) (recorded : Bool)
    (audience : String) :
    (ofEngine snapshot settings).holds audience =
      Engine.confirms { settings.engine with traced := recorded } snapshot audience := by
  rw [Bool.eq_iff_iff, holds_ofEngine_iff, Engine.confirms_iff, Engine.exists_report_iff]

end Grounds

/-- Verdicts that remember nothing, with the engine as judge, rest on what the engine says. -/
lemma Verdicts.ofEngine_restsOn (snapshot : Snapshot) (settings : EngineSettings) :
    (Verdicts.ofEngine snapshot settings).RestsOn (.ofEngine snapshot settings) :=
  ⟨rfl, rfl, fun _ _ _ => rfl, fun _ _ h => nomatch h⟩

end Targeting
