import Targeting.Proofs.Evaluation.SideBySide
import Targeting.Proofs.Rule.LexicalGrammar

/-!
# References and reports

A reference to an audience is evaluated on the trail of the audiences that refer to it, the report
on the audience on a trail of its own. The longer trail can only stop the evaluation: by a cycle, or
by the limit. Otherwise both come to the same.

## Main definitions

* `Targeting.Trail.Within` — a trail whose audiences are all on a second one, which is as deep.
* `Targeting.Engine.Stops` — the errors by which a trail stops an evaluation.

## Main results

* `Targeting.Engine.outcomeOn_follows` — a rule on a longer trail follows itself on a shorter one.
* `Targeting.Engine.report_eq_ok_iff` — when there is a report.
* `Targeting.Engine.refer_agrees_report` — a reference agrees with the report on the audience.
-/

set_option autoImplicit false

namespace Targeting

/-! ## Trails -/

/-- Whether the audiences on a trail are all on another one, which is at least as deep. -/
structure Trail.Within (trail trail' : Trail) : Prop where
  chain : trail.chain ⊆ trail'.chain
  depth : trail.depth ≤ trail'.depth

/-- Two trails remain one within the other inside a reference. -/
lemma Trail.Within.enter {trail trail' : Trail} (h : trail.Within trail') (name : String) :
    (trail.enter name).Within (trail'.enter name) :=
  ⟨List.cons_subset_cons name h.chain, Nat.succ_le_succ h.depth⟩

/-- The trail of an audience for itself is within each trail that enters the audience. -/
lemma Trail.root_within_enter (trail : Trail) (name : String) :
    (Trail.root name).Within (trail.enter name) := by
  refine ⟨?_, Nat.zero_le _⟩
  intro x hx
  unfold root at hx
  split at hx
  · cases hx
  · obtain rfl := List.mem_singleton.1 hx
    exact List.mem_cons_self ..

namespace Engine

/-- Whether an error is one by which a trail stops an evaluation: a cycle, or the limit. -/
def Stops (engine : Engine) (error : RuleError) : Prop :=
  (∃ name, error.fault = .cyclicReference name) ∨ error.fault = .depthExceeded engine.depthLimit

/-! ## References -/

/-- A reference comes to what the rule of the audience comes to inside the reference, unless the
trail stops it or the audience has no rule. -/
lemma refer_eq (engine : Engine) (snapshot : Snapshot) (traced : Bool) (trail : Trail)
    (name : String) (column : Nat) :
    engine.refer snapshot traced trail name column =
      if name ∈ trail.chain then .error ⟨.cyclicReference name, column⟩
      else if engine.depthLimit ≤ trail.depth then .error ⟨.depthExceeded engine.depthLimit, column⟩
      else match snapshot.rule? name with
        | none => .error ⟨.unknownAudience name, column⟩
        | some rule => engine.outcomeOn snapshot traced (trail.enter name) rule := by
  rw [refer]
  split_ifs with hcyclic hdepth
  · rfl
  · rfl
  · split <;> simp_all [outcomeOn, around]

/-- An engine does alike on a longer trail, unless this trail stops it. -/
lemma alike_within (engine : Engine) (snapshot : Snapshot) :
    Alike (fun fault => engine.Stops ⟨fault, 0⟩) Trail.Within engine engine snapshot snapshot := by
  refine ⟨fun _ => rfl, ?_⟩
  intro trail trail' h name
  by_cases hcyclic : name ∈ trail'.chain
  · rw [entry_of_mem engine hcyclic]
    exact .excused (.inl ⟨name, rfl⟩)
  rcases Nat.lt_or_ge trail'.depth engine.depthLimit with hdepth | hdepth
  · -- the shorter trail does not stop what the longer one does not stop
    rw [entry_of_lt engine hcyclic hdepth, entry_of_lt engine (fun hmem => hcyclic (h.chain hmem))
      (h.depth.trans_lt hdepth)]
    exact .refl (fun rule => ⟨⟨rfl, .refl (fun _ => rfl) _⟩, h.enter name⟩) _
  · rw [entry_of_le engine hcyclic hdepth]
    exact .excused (.inr rfl)

/-- A rule on a longer trail follows itself on a shorter one, whether steps are recorded or not. -/
lemma outcomeOn_follows (engine : Engine) (snapshot : Snapshot) (traced traced' : Bool)
    {trail trail' : Trail} (h : trail.Within trail') (rule : String) :
    Follows engine.Stops (SameResult fun _ _ => True)
      (engine.outcomeOn snapshot traced trail rule)
      (engine.outcomeOn snapshot traced' trail' rule) :=
  (engine.alike_within snapshot).outcomeOn (Trace.corresponds_any traced traced') h
    (.refl (fun _ => rfl) _)

/-- Whether steps are recorded changes neither the result of a rule nor its error. -/
lemma outcomeOn_map_fst (engine : Engine) (snapshot : Snapshot) (traced traced' : Bool)
    (trail : Trail) (rule : String) :
    (engine.outcomeOn snapshot traced trail rule).map (·.1) =
      (engine.outcomeOn snapshot traced' trail rule).map (·.1) := by
  have halike : Alike (fun _ => False) Eq engine engine snapshot snapshot :=
    .of_findRule rfl (fun _ => rfl) fun _ => .refl (fun _ => ⟨rfl, .refl (fun _ => rfl) _⟩) _
  have hfollows := halike.outcomeOn (Trace.corresponds_any traced' traced) (rfl : trail = trail)
    (.refl (fun _ => rfl) (Program.ofRule snapshot engine.policy rule))
  exact (hfollows.map fun _ _ hsame => hsame.1).eq

/-! ## Reports -/

/-- A rule with a program is not blank. -/
lemma isBlank_eq_false_of_ofRule {snapshot : Snapshot} {policy : FieldPolicy} {rule : String}
    {program : Program} (h : Program.ofRule snapshot policy rule = .ok program) :
    isBlank rule = false := by
  rw [← Bool.not_eq_true]
  intro hblank
  rw [Program.ofRule, tokensOf, lexemesOf_of_isBlank hblank] at h
  cases h

/-- There is a report on an audience exactly when its rule has a program that comes to a result on
the audience's own trail.

**Proof sketch.** A report is made from the rule of the audience, its program and its outcome, one
after the other, and each of these may fail. The rule is not blank if it has a program. -/
theorem report_eq_ok_iff {engine : Engine} {snapshot : Snapshot} {audience : String}
    {report : Report} :
    engine.report snapshot audience = .ok report ↔
      ∃ rule program, snapshot.rule? audience = some rule ∧
        Program.ofRule snapshot engine.policy rule = .ok program ∧
        engine.outcomeOn snapshot engine.traced (.root audience) rule =
          .ok (report.matched, report.trace) ∧
        report.audience = audience ∧ report.names = program.names := by
  unfold Engine.report
  split
  · next hrule => simp [hrule]
  · next rule hrule =>
    constructor
    · intro h
      split_ifs at h
      rw [mapError_eq_ok_iff, bind_eq_ok_iff] at h
      obtain ⟨program, hprogram, h⟩ := h
      rw [bind_eq_ok_iff] at h
      obtain ⟨⟨matched, trace⟩, houtcome, h⟩ := h
      obtain rfl := Except.ok.inj h
      have hrun : engine.outcomeOn snapshot engine.traced (.root audience) rule =
          .ok (matched, trace) := bind_eq_ok_iff.2 ⟨program, hprogram, houtcome⟩
      exact ⟨rule, program, hrule, hprogram, hrun, rfl, rfl⟩
    · rintro ⟨rule', program, hrule', hprogram, houtcome, rfl, hnames⟩
      obtain rfl : rule = rule' := Option.some.inj (hrule.symm.trans hrule')
      have hblank := isBlank_eq_false_of_ofRule hprogram
      rw [if_neg (by simp [hblank]), mapError_eq_ok_iff, bind_eq_ok_iff]
      refine ⟨program, hprogram, ?_⟩
      rw [outcomeOn, hprogram] at houtcome
      rw [← hnames]
      exact bind_eq_ok_iff.2 ⟨_, houtcome, rfl⟩

/-- The report on an audience fails with a fault of its rule exactly when the rule is not blank and
has the fault on the audience's own trail. -/
theorem report_eq_error_iff {engine : Engine} {snapshot : Snapshot} {audience : String}
    {error : RuleError} :
    engine.report snapshot audience = .error (.rule error) ↔
      ∃ rule, snapshot.rule? audience = some rule ∧ isBlank rule = false ∧
        engine.outcomeOn snapshot engine.traced (.root audience) rule = .error error := by
  unfold Engine.report
  split
  · next hrule => simp [hrule]
  · next rule hrule =>
    rw [hrule]
    simp only [Option.some.injEq, exists_eq_left']
    cases isBlank rule with
    | true => simp
    | false =>
      rw [if_neg Bool.false_ne_true, mapError_eq_error_iff, outcomeOn]
      simp [bind_eq_error_iff, pure, Except.pure]

/-- **An audience means the same referenced or alone.** Whatever audiences are being evaluated, a
reference that has a result has the one that the report on the audience shows; and if there is a
report, the reference has its result, or is stopped by a cycle or by the limit.

**Proof sketch.** The trail of the report is within that of the reference, so the rule inside the
reference follows the rule by itself, by `Targeting.Engine.outcomeOn_follows`: they have the same
result unless the longer trail stops it, and it can do so by a cycle or by the limit only. The
reference itself may be stopped in the same ways before it enters the rule. -/
theorem refer_agrees_report (engine : Engine) (snapshot : Snapshot) (traced : Bool) (trail : Trail)
    (name : String) (column : Nat) :
    (∀ result steps, engine.refer snapshot traced trail name column = .ok (result, steps) →
      ∃ report, engine.report snapshot name = .ok report ∧ report.matched = result) ∧
    ∀ report, engine.report snapshot name = .ok report →
      (∃ steps, engine.refer snapshot traced trail name column = .ok (report.matched, steps)) ∨
        (∃ inner place, engine.refer snapshot traced trail name column =
          .error ⟨.cyclicReference inner, place⟩) ∨
        ∃ place, engine.refer snapshot traced trail name column =
          .error ⟨.depthExceeded engine.depthLimit, place⟩ := by
  -- the reference enters the rule with a trail that holds that of the report
  have hfollows := engine.outcomeOn_follows snapshot engine.traced traced
    (trail.root_within_enter name)
  rw [refer_eq]
  constructor
  · intro result steps h
    split_ifs at h
    split at h
    · cases h
    · next rule hrule =>
      have hrule_follows := hfollows rule
      rw [h] at hrule_follows
      obtain ⟨⟨alone, trace⟩, halone, hresult, -⟩ := hrule_follows.exists_left
      obtain ⟨program, hprogram, -⟩ := bind_eq_ok_iff.1 halone
      exact ⟨⟨name, alone, trace, program.names⟩,
        report_eq_ok_iff.2 ⟨rule, program, hrule, hprogram, halone, rfl, rfl⟩, hresult⟩
  · intro report h
    obtain ⟨rule, program, hrule, hprogram, halone, -, -⟩ := report_eq_ok_iff.1 h
    split_ifs
    · exact .inr (.inl ⟨name, column, rfl⟩)
    · exact .inr (.inr ⟨column, rfl⟩)
    · rw [hrule]
      have hrule_follows := hfollows rule
      rw [halone] at hrule_follows
      -- inside the reference the longer trail may stop the rule
      rcases hrule_follows.exists_right with hresult | herror
      · obtain ⟨⟨result, steps⟩, hnested, hresult, -⟩ := hresult
        obtain rfl : report.matched = result := hresult
        exact .inl ⟨steps, hnested⟩
      · obtain ⟨⟨fault, place⟩, hnested, hstops⟩ := herror
        rcases hstops with ⟨inner, rfl⟩ | rfl
        · exact .inr (.inl ⟨inner, place, hnested⟩)
        · exact .inr (.inr ⟨place, hnested⟩)

/-- A reference from another audience, and the report that it agrees with. -/
theorem refer_agrees_report_other :
    Engine.refer {} { rules := .ofList [("m", "'a' == 'a'")] } false (.root "n") "m" 1 =
        .ok (true, []) ∧
      ∃ report, Engine.report {} { rules := .ofList [("m", "'a' == 'a'")] } "m" = .ok report ∧
        report.matched = true := by
  have hrefer : Engine.refer {} { rules := .ofList [("m", "'a' == 'a'")] } false (.root "n") "m" 1 =
      .ok (true, []) := by
    rw [refer_eq]
    decide +kernel
  exact ⟨hrefer, (refer_agrees_report {} { rules := .ofList [("m", "'a' == 'a'")] } false
    (.root "n") "m" 1).1 true [] hrefer⟩

end Engine

end Targeting
