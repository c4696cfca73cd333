import Targeting.Proofs.Evaluation.SideBySide
import Targeting.Proofs.Rule.Words
import Targeting.Proofs.Snapshot.Filling

/-!
# Strict and lenient engines

The strict policy refuses words for fields that a record lacks, where the lenient one takes them for
the empty text. That is all it does: the outcome of a rule is the same under both policies, or the
strict engine comes upon such a word, in the rule or in one that it refers to. In a snapshot that
was built leniently the registered rules have no such words, so no report shows the policy.

## Main definitions

* `Targeting.Snapshot.Lacks` — whether a field is missing in a record that is there.
* `Targeting.Engine.withPolicy` — an engine with another policy.

## Main results

* `Targeting.Engine.alike_strict` — a strict engine does as a lenient one but for missing fields.
* `Targeting.Engine.report_fillMentioned` — where fields are filled in, no report shows the policy.
* `Targeting.Engine.outcome_fieldPolicy` — what the strict policy adds, and where it adds nothing.
-/

set_option autoImplicit false

namespace Targeting

/-- Whether the record of an object is there and lacks a field. -/
def Snapshot.Lacks (snapshot : Snapshot) (path : FieldPath) : Prop :=
  ∃ record, snapshot.record? path.object = some record ∧ record.get? path.field = none

/-- A field that is missing is not admitted under the strict policy. -/
lemma Snapshot.Lacks.admits_strict {snapshot : Snapshot} {path : FieldPath}
    (h : snapshot.Lacks path) : Token.admits snapshot .strict path = false := by
  obtain ⟨record, hrecord, hfield⟩ := h
  simp [Token.admits, hrecord, Dict.contains, hfield]

/-- A field is admitted under both policies or under neither, or it is missing. -/
lemma Snapshot.admits_strict_or_lacks (snapshot : Snapshot) (path : FieldPath) :
    Token.admits snapshot .strict path = Token.admits snapshot .lenient path ∨
      Token.admits snapshot .strict path = false ∧ snapshot.Lacks path := by
  unfold Token.admits
  cases hrecord : snapshot.record? path.object with
  | none => exact .inl rfl
  | some record =>
    cases hfield : record.get? path.field with
    | none => exact .inr ⟨by simp [Dict.contains, hfield], record, hrecord, hfield⟩
    | some value => exact .inl (by simp [Dict.contains, hfield])

/-- A word that spells the path of a field is the field, if it is admitted. -/
lemma Token.ofWord_of_path (snapshot : Snapshot) (policy : FieldPolicy) {word : String}
    {path : FieldPath} (hword : FieldPath.ofWord? word = some path) :
    ofWord snapshot policy word =
      if admits snapshot policy path then .ok (.variable (.record path))
      else .error (.unknownVariable word) := by
  have hpoint : '.' ∈ word.toList := by
    rw [← FieldPath.text_of_ofWord? hword]
    simp [FieldPath.text]
  simp only [ofWord, readTruth?_eq_none_of_mem hpoint, Attribute.ofName?_eq_none_of_mem hpoint,
    hword]

/-- The fields that a rule with a program mentions are admitted. -/
lemma Program.admits_of_ofRule {snapshot : Snapshot} {policy : FieldPolicy} {rule : String}
    {program : Program} (h : ofRule snapshot policy rule = .ok program) {path : FieldPath}
    (hpath : path ∈ Snapshot.mentioned rule) : Token.admits snapshot policy path = true := by
  obtain ⟨tokens, htokens, -⟩ := bind_eq_ok_iff.1 h
  obtain ⟨lexemes, hlexemes, htokens⟩ := bind_eq_ok_iff.1 htokens
  obtain ⟨_, hlexemes', word, column, hmem, hword⟩ := Snapshot.mem_mentioned_iff.1 hpath
  obtain rfl := Except.ok.inj (hlexemes.symm.trans hlexemes')
  obtain ⟨before, after, rfl⟩ := List.append_of_mem hmem
  rw [Token.ofLexemes_append, bind_eq_ok_iff] at htokens
  obtain ⟨_, -, htokens⟩ := htokens
  obtain ⟨_, htokens, -⟩ := map_eq_ok_iff.1 htokens
  by_contra hrefused
  rw [Token.ofLexemes, Token.ofLexeme, Token.ofWord_of_path snapshot policy hword,
    if_neg hrefused] at htokens
  cases htokens

namespace Engine

/-- An engine with another policy. -/
abbrev withPolicy (engine : Engine) (policy : FieldPolicy) : Engine := { engine with policy }

/-- The fault of a word that spells a field which is missing. -/
def MissesField (snapshot : Snapshot) (fault : Fault) : Prop :=
  ∃ word path, fault = .unknownVariable word ∧ FieldPath.ofWord? word = some path ∧
    snapshot.Lacks path

/-- A rule is read alike under both policies, or the strict one comes upon a missing field. -/
lemma sameProgram_strict (engine : Engine) (snapshot : Snapshot) (rule : String) :
    (engine.withPolicy .lenient).SameProgram (MissesField snapshot) (engine.withPolicy .strict)
      snapshot snapshot rule := by
  refine Program.ofRule_follows fun path hpath => ?_
  refine (snapshot.admits_strict_or_lacks path).imp_right fun ⟨hrefused, hlacks⟩ => ⟨hrefused, ?_⟩
  obtain ⟨_, -, word, _, -, hword⟩ := Snapshot.mem_mentioned_iff.1 hpath
  exact ⟨path.text, path, rfl, (FieldPath.text_of_ofWord? hword).symm ▸ hword, hlacks⟩

/-- A strict engine does as a lenient one, or comes upon a missing field. -/
lemma alike_strict (engine : Engine) (snapshot : Snapshot) :
    Alike (MissesField snapshot) Eq (engine.withPolicy .lenient) (engine.withPolicy .strict)
      snapshot snapshot :=
  .of_findRule rfl (fun _ => rfl) fun _ =>
    .refl (fun rule => ⟨rfl, engine.sameProgram_strict snapshot rule⟩) _

/-- In a snapshot that is filled in, the registered rules have the same program under all
policies.

**Proof sketch.** The fields that a registered rule mentions are there or have no record, once the
snapshot is filled in, so both policies admit them alike, by
`Targeting.Snapshot.admits_fillMentioned`. -/
lemma findRule_fillMentioned (engine : Engine) (snapshot : Snapshot) (policy policy' : FieldPolicy)
    (name : String) :
    Follows (fun _ => False)
      (fun rule rule' => rule = rule' ∧ (engine.withPolicy policy).SameProgram (fun _ => False)
        (engine.withPolicy policy') snapshot.fillMentioned snapshot.fillMentioned rule)
      (snapshot.fillMentioned.findRule name) (snapshot.fillMentioned.findRule name) := by
  cases hfound : snapshot.fillMentioned.findRule name with
  | error fault => exact .error fault
  | ok rule =>
    have hrule := Snapshot.findRule_eq_ok_iff.1 hfound
    have hprogram : (engine.withPolicy policy).SameProgram (fun _ => False)
        (engine.withPolicy policy') snapshot.fillMentioned snapshot.fillMentioned rule := by
      have hadmits : ∀ path ∈ Snapshot.mentioned rule, AdmitsAlike (fun _ => False)
          snapshot.fillMentioned snapshot.fillMentioned policy policy' path := by
        intro path hpath
        have hmentioned : path ∈ snapshot.mentionedPaths :=
          Snapshot.mem_mentionedPaths_iff.2 ⟨name, rule, hrule, hpath⟩
        exact .inl (Snapshot.admits_fillMentioned hmentioned policy' policy)
      exact Program.ofRule_follows hadmits
    exact .ok ⟨rfl, hprogram⟩

/-- In a snapshot that is filled in, the policy of the engine does not show in reports. -/
lemma report_fillMentioned (engine : Engine) (snapshot : Snapshot) (policy policy' : FieldPolicy)
    (audience : String) :
    (engine.withPolicy policy').report snapshot.fillMentioned audience =
      (engine.withPolicy policy).report snapshot.fillMentioned audience := by
  have hrule := engine.findRule_fillMentioned snapshot policy policy'
  have halike : Alike (fun _ => False) Eq (engine.withPolicy policy) (engine.withPolicy policy')
      snapshot.fillMentioned snapshot.fillMentioned := .of_findRule rfl (fun _ => rfl) hrule
  have hfollows := halike.report rfl rfl (hrule audience)
  rcases hfollows.eq_or_excused with heq | ⟨error, -, hexcused⟩
  · exact heq
  · cases error <;> exact hexcused.elim

/-- **The strict policy only adds unknown variables, and none to registered rules of a snapshot that
was built leniently.** Whatever the snapshot, a rule has the same outcome under both policies, or
under the strict one it fails at a word for a field that is missing in a record that is there; a
rule that mentions such a field itself never has an outcome then. After lenient building, reports
are the same under both policies.

**Proof sketch.** Strict and lenient engines do alike but for a word whose field is missing, by
`Targeting.Engine.alike_strict`. A rule that mentions such a field has no program under the strict
policy. After lenient building the snapshot is filled in, and
`Targeting.Engine.report_fillMentioned` applies. -/
theorem outcome_fieldPolicy (engine : Engine) :
    (∀ (snapshot : Snapshot) (rule : String),
      ((engine.withPolicy .strict).outcome snapshot rule =
          (engine.withPolicy .lenient).outcome snapshot rule ∨
        ∃ word path column, (engine.withPolicy .strict).outcome snapshot rule =
            .error ⟨.unknownVariable word, column⟩ ∧
          FieldPath.ofWord? word = some path ∧ snapshot.Lacks path) ∧
      ∀ path ∈ Snapshot.mentioned rule, snapshot.Lacks path →
        ∃ error, (engine.withPolicy .strict).outcome snapshot rule = .error error) ∧
    ∀ edits : List Snapshot.Edit, (edits.foldl Snapshot.Draft.edit {}).policy = .lenient →
      ∀ audience, (engine.withPolicy .strict).report (Snapshot.ofEdits edits) audience =
        (engine.withPolicy .lenient).report (Snapshot.ofEdits edits) audience := by
  constructor
  · intro snapshot rule
    constructor
    · have hfollows := (engine.alike_strict snapshot).outcome rfl (fun _ => rfl)
        (engine.sameProgram_strict snapshot rule)
      refine hfollows.eq_or_excused.imp_right ?_
      rintro ⟨⟨_, column⟩, herror, word, path, rfl, hword, hlacks⟩
      exact ⟨word, path, column, herror, hword, hlacks⟩
    · intro path hpath hlacks
      cases houtcome : (engine.withPolicy .strict).outcome snapshot rule with
      | error error => exact ⟨error, rfl⟩
      | ok result =>
        obtain ⟨_, hrun, -⟩ := map_eq_ok_iff.1 houtcome
        obtain ⟨program, hprogram, -⟩ := bind_eq_ok_iff.1 hrun
        have hadmits := Program.admits_of_ofRule hprogram hpath
        rw [hlacks.admits_strict] at hadmits
        cases hadmits
  · intro edits hpolicy audience
    rw [Snapshot.ofEdits, Snapshot.Draft.finish, hpolicy]
    exact engine.report_fillMentioned _ .lenient .strict audience

/-- A rule that mentions a missing field by way of another one: it is lenient in a snapshot that was
not filled in, and under both policies in one that was. -/
theorem outcome_fieldPolicy_city :
    let edits : List Snapshot.Edit :=
      [.record "Account", .rule "home" "Account.City == 'A\\'s' || Account.Zip != '1'",
        .rule "any" "Audience == 'home'", .policy .lenient]
    let bare := (edits.foldl Snapshot.Draft.edit {}).snapshot
    (edits.foldl Snapshot.Draft.edit {}).policy = .lenient ∧
      Engine.report { policy := .strict } (Snapshot.ofEdits edits) "any" =
        Engine.report { policy := .lenient } (Snapshot.ofEdits edits) "any" ∧
      Engine.outcome { policy := .lenient } bare "Account.City == ''" = .ok true ∧
      ∃ error, Engine.outcome { policy := .strict } bare "Account.City == ''" = .error error := by
  intro edits bare
  have hpolicy : (edits.foldl Snapshot.Draft.edit {}).policy = .lenient := rfl
  have hmentioned : ⟨"Account", "City"⟩ ∈ Snapshot.mentioned "Account.City == ''" := by
    decide +kernel
  have hlacks : bare.Lacks ⟨"Account", "City"⟩ := ⟨∅, by decide +kernel, rfl⟩
  refine ⟨hpolicy, (outcome_fieldPolicy {}).2 edits hpolicy "any", by decide +kernel, ?_⟩
  exact ((outcome_fieldPolicy {}).1 bare _).2 _ hmentioned hlacks

end Engine

end Targeting
