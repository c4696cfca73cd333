import Targeting.Proofs.Rule.Admission
import Targeting.Proofs.Verdicts.Reports

/-!
# Four ways to ask about an audience

An audience can be asked about by a verdict, by a report, by the outcome of its rule as that of the
audience, and by the outcome of its rule in a snapshot whose own audience it is. The trail begins
with the audience in all four, so that they come to the same. They differ in what becomes of an
audience without a rule or with a blank one, and in what becomes of errors: a report tells them,
and a verdict takes all of them for a no.

## Main results

* `Targeting.Engine.outcome_withAudience` — a snapshot's own audience is where the trail begins.
* `Targeting.Engine.map_report` — a report shows the outcome of the audience's rule, or its error.
* `Targeting.Verdicts.entryPoints_agree` — the four answers agree.
-/

set_option autoImplicit false

namespace Targeting

namespace Engine

/-- A rule has the same program whatever the snapshot's own audience is. -/
lemma sameProgram_withAudience (engine : Engine) (snapshot : Snapshot) (audience rule : String) :
    engine.SameProgram (fun _ => False) engine snapshot { snapshot with audience } rule := by
  have hadmits : ∀ path ∈ Snapshot.mentioned rule, AdmitsAlike (fun _ => False) snapshot
      { snapshot with audience } engine.policy engine.policy path := by
    intro path _
    exact .inl rfl
  exact Program.ofRule_follows hadmits

/-- The outcome of a rule in a snapshot with another audience of its own is the outcome of the rule
as that of this audience: the trail begins with it, and nothing else looks at it. -/
theorem outcome_withAudience (engine : Engine) (snapshot : Snapshot) (audience rule : String) :
    engine.outcome { snapshot with audience } rule =
      engine.outcomeFor snapshot audience rule := by
  have hrule : ∀ name, Follows (fun _ => False)
      (fun rule rule' => rule = rule' ∧
        engine.SameProgram (fun _ => False) engine snapshot { snapshot with audience } rule)
      (snapshot.findRule name) (Snapshot.findRule { snapshot with audience } name) := by
    intro name
    exact .refl (fun text => ⟨rfl, engine.sameProgram_withAudience snapshot audience text⟩) _
  have halike : Alike (fun _ => False) Eq engine engine snapshot { snapshot with audience } :=
    .of_findRule rfl (fun _ => rfl) hrule
  have hfollows := halike.outcomeOn (Trace.corresponds_eq false)
    (rfl : Trail.root audience = Trail.root audience)
    (engine.sameProgram_withAudience snapshot audience rule)
  exact (hfollows.map fun _ _ hsame => hsame.1).eq

/-- The report on an audience whose rule is not blank shows the outcome of the rule as that of the
audience, or has its error. -/
theorem map_report {engine : Engine} {snapshot : Snapshot} {audience rule : String}
    (hrule : snapshot.rule? audience = some rule) (hblank : isBlank rule = false) :
    (engine.report snapshot audience).map (·.matched) =
      (engine.outcomeFor snapshot audience rule).mapError .rule := by
  -- the report may record steps, the outcome does not
  have htraced := engine.outcomeOn_map_fst snapshot false engine.traced (.root audience) rule
  rw [outcomeFor, htraced, report, hrule]
  simp only [hblank, Bool.false_eq_true, if_false, outcomeOn]
  cases Program.ofRule snapshot engine.policy rule with
  | error error => rfl
  | ok program =>
    dsimp only [bind, Except.bind]
    cases program.outcome (engine.around snapshot engine.traced (.root audience)) <;> rfl

end Engine

/-- **All ways to ask about an audience agree.** An audience that is not open is allowed exactly
when the report on it, with steps or without, shows that it is matched. If the audience has a rule
that is not blank, then the report shows the outcome of the rule as that of the audience, with the
same error if it fails, and so does the outcome of the rule in the snapshot whose own audience it
is.

**Proof sketch.** An audience that is not open is allowed if it holds, by what the verdicts rest on,
and that is what the report confirms, by `Targeting.Grounds.holds_eq_confirms`. For a rule that is
not blank the report is `Targeting.Engine.map_report`, and a snapshot in which the audience is its
own gives the same trail to the rule. -/
theorem Verdicts.entryPoints_agree (snapshot : Snapshot) (settings : EngineSettings)
    (recorded : Bool) (audience : String) (h : settings.isOpen (some audience) = false) :
    let engine : Engine := { settings.engine with traced := recorded }
    (((Verdicts.ofEngine snapshot settings).allowsAudience (some audience)).1 = true ↔
        ∃ report, engine.report snapshot audience = .ok report ∧ report.matched = true) ∧
      ∀ rule, snapshot.rule? audience = some rule → isBlank rule = false →
        (engine.report snapshot audience).map (·.matched) =
            (engine.outcomeFor snapshot audience rule).mapError .rule ∧
          engine.outcome { snapshot with audience } rule =
            engine.outcomeFor snapshot audience rule := by
  intro engine
  constructor
  · have hrests := Verdicts.ofEngine_restsOn snapshot settings
    have hconfirms : ((Verdicts.ofEngine snapshot settings).allowsAudience (some audience)).1 =
        engine.confirms snapshot audience := by
      rw [(hrests.allowsAudience (some audience)).answer, Grounds.allowsAudience]
      change (settings.isOpen (some audience) || _) = _
      rw [h, Bool.false_or]
      exact Grounds.holds_eq_confirms snapshot settings recorded audience
    rw [hconfirms, Engine.confirms_iff]
  · intro rule hrule hblank
    exact ⟨Engine.map_report hrule hblank, engine.outcome_withAudience snapshot audience rule⟩

/-- Two audiences that refer to each other: neither holds, and the report on one of them fails with
the error of its rule, which refers to the audience that the trail begins with.

**Proof sketch.** The outcome of the one rule is computed. By the theorem it is that of the report
and that of the rule in its own snapshot, and since the report fails the audience is not allowed. -/
theorem Verdicts.entryPoints_agree_circle :
    let snapshot : Snapshot :=
      { audience := "m", rules := .ofList [("k", "Audience == 'n'"), ("n", "Audience == 'k'")] }
    ({} : EngineSettings).isOpen (some "k") = false ∧
      ((Verdicts.ofEngine snapshot {}).allowsAudience (some "k")).1 = false ∧
      (Engine.report {} snapshot "k").map (·.matched) =
        .error (.rule ⟨.cyclicReference "k", 10⟩) ∧
      Engine.outcome {} { snapshot with audience := "k" } "Audience == 'n'" =
        .error ⟨.cyclicReference "k", 10⟩ := by
  intro snapshot
  have hopen : ({} : EngineSettings).isOpen (some "k") = false := by decide
  have hrule : snapshot.rule? "k" = some "Audience == 'n'" := by decide +kernel
  have hcircle : Engine.outcomeFor {} snapshot "k" "Audience == 'n'" =
      .error ⟨.cyclicReference "k", 10⟩ := by
    unfold snapshot
    decide +kernel
  obtain ⟨hallowed, houtcome⟩ := Verdicts.entryPoints_agree snapshot {} false "k" hopen
  obtain ⟨hreport, hown⟩ := houtcome "Audience == 'n'" hrule (by decide)
  have hshown : (Engine.report {} snapshot "k").map (·.matched) =
      .error (.rule ⟨.cyclicReference "k", 10⟩) :=
    hreport.trans (congrArg (Except.mapError ReportError.rule) hcircle)
  refine ⟨hopen, ?_, hshown, hown.trans hcircle⟩
  rw [Bool.eq_false_iff, ne_eq, hallowed]
  rintro ⟨report, hexists, -⟩
  have hnone := hshown.symm.trans (congrArg (Except.map (·.matched)) hexists)
  cases hnone

end Targeting
