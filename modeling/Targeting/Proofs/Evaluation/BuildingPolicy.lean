import Mathlib.Data.List.Basic
import Targeting.Proofs.Evaluation.SideBySide
import Targeting.Proofs.Snapshot.Filling

/-!
# Snapshots built under different policies

A lenient engine takes a field that a record lacks for the empty text. So it does not matter to it
whether the empty text was put there before, when the snapshot was built: fields that are filled in
change no operand, and a lenient engine may speak of every field of a record that is there. The
policy under which a snapshot was built does not show in anything that a lenient engine says.

## Main results

* `Targeting.Snapshot.ofEdits_eq_or` — edits build the snapshot of their draft, or fill it in.
* `Targeting.Engine.alike_of_fills` — a lenient engine does the same where fields are filled in.
* `Targeting.Engine.lenient_ignores_building` — outcomes and reports do not show the building.
-/

set_option autoImplicit false

namespace Targeting

/-! ## Building -/

namespace Snapshot

/-- Whether an edit sets the policy. -/
def Edit.setsPolicy : Edit → Bool
  | .policy _ => true
  | _ => false

/-- Drafts of the same snapshot have the same snapshot after an edit. -/
lemma Draft.snapshot_edit_congr {draft draft' : Draft} (h : draft.snapshot = draft'.snapshot)
    (edit : Edit) : (draft.edit edit).snapshot = (draft'.edit edit).snapshot := by
  cases edit <;> simp only [Draft.edit, h]

/-- Edits of the policy leave the snapshot of a draft as it is, whatever comes after them. -/
lemma Draft.snapshot_foldl_edit {draft draft' : Draft} (h : draft.snapshot = draft'.snapshot)
    (edits : List Edit) :
    (edits.foldl Draft.edit draft).snapshot =
      ((edits.filter (!·.setsPolicy)).foldl Draft.edit draft').snapshot := by
  induction edits generalizing draft draft' with
  | nil => exact h
  | cons edit edits ih =>
    cases hpolicy : edit.setsPolicy with
    | true =>
      have hsame : (draft.edit edit).snapshot = draft.snapshot := by
        cases edit <;> simp_all [Edit.setsPolicy, Draft.edit]
      rw [List.filter_cons_of_neg (by simp [hpolicy]), List.foldl_cons]
      exact ih (hsame.trans h)
    | false =>
      rw [List.filter_cons_of_pos (by simp [hpolicy]), List.foldl_cons, List.foldl_cons]
      exact ih (Draft.snapshot_edit_congr h edit)

/-- A snapshot is filled in by the fields that its rules mention. -/
lemma fills_fillMentioned (snapshot : Snapshot) : snapshot.Fills snapshot.fillMentioned := by
  refine ⟨rfl, isSome_record?_fillMentioned snapshot, fun path => ?_⟩
  rw [field?_fillMentioned]
  cases snapshot.field? path with
  | some value => exact .inl rfl
  | none =>
    rw [Option.none_or]
    split_ifs
    · exact .inr ⟨rfl, rfl⟩
    · exact .inl rfl

/-- Edits build the snapshot of their draft, or the one that is filled in. -/
lemma ofEdits_eq_or (edits : List Edit) :
    ofEdits edits = (edits.foldl Draft.edit {}).snapshot ∨
      ofEdits edits = (edits.foldl Draft.edit {}).snapshot.fillMentioned := by
  unfold ofEdits Draft.finish
  cases (edits.foldl Draft.edit {}).policy with
  | strict => exact .inl rfl
  | lenient => exact .inr rfl

end Snapshot

/-! ## Lenient engines -/

namespace Engine

variable {engine : Engine} {snapshot snapshot' : Snapshot}

/-- A rule is read alike by a lenient engine where fields are filled in. -/
lemma sameProgram_of_fills (hlenient : engine.policy = .lenient) (h : snapshot.Fills snapshot')
    (rule : String) : engine.SameProgram (fun _ => False) engine snapshot snapshot' rule := by
  have hadmits : ∀ path ∈ Snapshot.mentioned rule,
      AdmitsAlike (fun _ => False) snapshot snapshot' engine.policy engine.policy path := by
    intro path _
    refine .inl (Bool.eq_iff_iff.2 ?_)
    rw [Token.admits_eq_true_iff, Token.admits_eq_true_iff, h.record]
    simp only [hlenient, or_true]
  exact Program.ofRule_follows hadmits

/-- A lenient engine does the same in two snapshots with the same rules of which one is filled in
with fields that the other one lacks. -/
lemma alike_of_fills (hlenient : engine.policy = .lenient) (h : snapshot.Fills snapshot')
    (hrules : snapshot'.rules = snapshot.rules) :
    Alike (fun _ => False) Eq engine engine snapshot snapshot' := by
  refine .of_findRule rfl (fun v => (h.ofVariable v).symm) fun name => ?_
  have hfound : snapshot'.findRule name = snapshot.findRule name := by
    simp only [Snapshot.findRule, Snapshot.rule?, hrules]
  rw [hfound]
  exact .refl (fun rule => ⟨rfl, sameProgram_of_fills hlenient h rule⟩) _

/-- A lenient engine says the same of a snapshot and of the one that is filled in. -/
lemma eq_fillMentioned (hlenient : engine.policy = .lenient) (snapshot : Snapshot) :
    (∀ rule, engine.outcome snapshot.fillMentioned rule = engine.outcome snapshot rule) ∧
      ∀ audience, engine.report snapshot.fillMentioned audience =
        engine.report snapshot audience := by
  have hfills := snapshot.fills_fillMentioned
  have halike := alike_of_fills hlenient hfills rfl
  constructor
  · intro rule
    exact (halike.outcome rfl (fun _ => rfl) (sameProgram_of_fills hlenient hfills rule)).eq
  · intro audience
    have hrule : Follows (fun _ => False)
        (fun rule rule' => rule = rule' ∧
          engine.SameProgram (fun _ => False) engine snapshot snapshot.fillMentioned rule)
        (snapshot.findRule audience) (snapshot.fillMentioned.findRule audience) :=
      .refl (fun rule => ⟨rfl, sameProgram_of_fills hlenient hfills rule⟩) _
    rcases (halike.report rfl rfl hrule).eq_or_excused with heq | ⟨error, -, hexcused⟩
    · exact heq
    · cases error <;> exact hexcused.elim

/-- **A lenient engine does not see how a snapshot was built.** Let two lists of edits be the same
but for edits of the policy. In the snapshots that they build, with missing fields filled in or not,
a lenient engine gives every rule the same outcome, registered or not, with the same error at the
same column if it fails, and every audience the same report, with the same steps and names.

**Proof sketch.** Edits of the policy do not reach the snapshot of a draft, so both drafts have the
same one. What is built is this snapshot, filled in or not, by `Targeting.Snapshot.ofEdits_eq_or`,
and a lenient engine does the same in both, by `Targeting.Engine.eq_fillMentioned`. -/
theorem lenient_ignores_building (engine : Engine) (hlenient : engine.policy = .lenient)
    (edits edits' : List Snapshot.Edit)
    (hsame : edits.filter (!·.setsPolicy) = edits'.filter (!·.setsPolicy)) :
    (∀ rule, engine.outcome (.ofEdits edits) rule = engine.outcome (.ofEdits edits') rule) ∧
      ∀ audience, engine.report (.ofEdits edits) audience =
        engine.report (.ofEdits edits') audience := by
  have hsnapshot : (edits.foldl Snapshot.Draft.edit {}).snapshot =
      (edits'.foldl Snapshot.Draft.edit {}).snapshot := by
    rw [Snapshot.Draft.snapshot_foldl_edit rfl edits, hsame]
    exact (Snapshot.Draft.snapshot_foldl_edit rfl edits').symm
  -- both snapshots are that of the draft, filled in or not
  have hbare : ∀ list : List Snapshot.Edit,
      (∀ rule, engine.outcome (.ofEdits list) rule =
        engine.outcome (list.foldl Snapshot.Draft.edit {}).snapshot rule) ∧
      ∀ audience, engine.report (.ofEdits list) audience =
        engine.report (list.foldl Snapshot.Draft.edit {}).snapshot audience := by
    intro list
    rcases Snapshot.ofEdits_eq_or list with heq | heq <;> rw [heq]
    · exact ⟨fun _ => rfl, fun _ => rfl⟩
    · exact eq_fillMentioned hlenient _
  obtain ⟨houtcome, hreport⟩ := hbare edits
  obtain ⟨houtcome', hreport'⟩ := hbare edits'
  rw [hsnapshot] at houtcome hreport
  exact ⟨fun rule => (houtcome rule).trans (houtcome' rule).symm,
    fun audience => (hreport audience).trans (hreport' audience).symm⟩

/-- A field that is filled in by one of the snapshots only, in the steps of a report by way of a
reference and in the message of an error.

**Proof sketch.** The fields of both snapshots, and what the engine makes of the rule and of the
audience in the one that is not filled in, are computed. The other one follows by the theorem. -/
theorem lenient_ignores_building_traced :
    let edits : List Snapshot.Edit :=
      [.record "Account", .rule "home" "Account.City == ''", .rule "any" "'home' == Audience"]
    let engine : Engine := { traced := true }
    let seeded := Snapshot.ofEdits edits
    let bare := Snapshot.ofEdits (.policy .strict :: edits)
    let rule := "Account.City && Account.Zip"
    engine.policy = .lenient ∧
      edits.filter (!·.setsPolicy) =
        ((.policy .strict :: edits : List Snapshot.Edit).filter (!·.setsPolicy)) ∧
      seeded.field? ⟨"Account", "City"⟩ = some (.text "") ∧
      bare.field? ⟨"Account", "City"⟩ = none ∧
      engine.outcome seeded rule = engine.outcome bare rule ∧
      engine.outcome bare rule =
        .error ⟨.unsupportedComparison .and "Account.City=''" "Account.Zip=''", 14⟩ ∧
      engine.report seeded "any" = engine.report bare "any" ∧
      (engine.report bare "any").toOption.map (·.trace.map TraceStep.text) =
        some ["Account.City='' == '' => true", "'home' == Audience => true"] := by
  intro edits engine seeded bare rule
  have hsame : edits.filter (!·.setsPolicy) =
      ((.policy .strict :: edits : List Snapshot.Edit).filter (!·.setsPolicy)) := rfl
  obtain ⟨houtcome, hreport⟩ :=
    lenient_ignores_building engine rfl edits (.policy .strict :: edits) hsame
  have hfields : seeded.field? ⟨"Account", "City"⟩ = some (.text "") ∧
      bare.field? ⟨"Account", "City"⟩ = none := by
    unfold seeded bare edits
    decide +kernel
  have hresults : engine.outcome bare rule =
      .error ⟨.unsupportedComparison .and "Account.City=''" "Account.Zip=''", 14⟩ ∧
      (engine.report bare "any").toOption.map (·.trace.map TraceStep.text) =
        some ["Account.City='' == '' => true", "'home' == Audience => true"] := by
    unfold engine bare edits rule
    decide +kernel
  exact ⟨rfl, hsame, hfields.1, hfields.2, houtcome rule, hresults.1, hreport "any", hresults.2⟩

end Engine

end Targeting
