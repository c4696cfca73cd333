import Mathlib.Data.List.Perm.Basic
import Targeting.Proofs.Rule.Words
import Targeting.Proofs.Snapshot.Filling

/-!
# Seeded snapshots

A lenient draft is finished by going through the table of rules and filling in a field wherever a
rule mentions a missing one. In which order the rules stand in the table does not matter: the
finished snapshot is the draft's, with records of the same objects, in which exactly those fields
are new, and empty, that a registered rule mentions and that were missing in a record.

Two snapshots are equal that have the same attributes and rules, and in which the same objects have
records with the same fields. So the finished snapshot is known from its fields.

## Main definitions

* `Targeting.Snapshot.Seeded` — a snapshot with the empty fields that its rules mention.
* `Targeting.Snapshot.Draft.Finishes` — a draft finished with its rules in some order.

## Main results

* `Targeting.Snapshot.ext_fieldIn` — tables of records with the same fields are equal.
* `Targeting.Snapshot.seeded_iff` — there is just one seeded snapshot.
* `Targeting.Snapshot.Draft.finishes_iff` — the order of the rules does not matter.
* `Targeting.Snapshot.mem_mentioned_iff_of_text` — which fields a rule mentions.
* `Targeting.Snapshot.fillMentioned_fillMentioned` — a seeded snapshot lacks nothing.
* `Targeting.Snapshot.Draft.finish_adds_mentioned` — what a lenient draft is finished with.
-/

set_option autoImplicit false

namespace Targeting.Snapshot

/-! ## Equal snapshots -/

/-- Tables with records of the same objects that have the same fields are equal. -/
theorem ext_fieldIn {data data' : Dict (Dict Value)}
    (hrecord : ∀ object, (data.get? object).isSome = (data'.get? object).isSome)
    (hfield : ∀ path, fieldIn data path = fieldIn data' path) : data = data' := by
  refine Dict.ext_get? fun object => ?_
  have hsome := hrecord object
  cases h : data.get? object with
  | none =>
    rw [h] at hsome
    exact (Option.not_isSome_iff_eq_none.1 (by simp [← hsome])).symm
  | some record =>
    rw [h] at hsome
    obtain ⟨record', h'⟩ := Option.isSome_iff_exists.1 hsome.symm
    rw [h']
    refine congrArg some (Dict.ext_get? fun field => ?_)
    simpa [fieldIn, h, h'] using hfield ⟨object, field⟩

/-- Fields are filled in alike in whatever order, and however often, they are mentioned. -/
lemma foldl_fillField_congr {paths paths' : List FieldPath}
    (h : ∀ path, path ∈ paths ↔ path ∈ paths')
    (data : Dict (Dict Value)) : paths.foldl fillField data = paths'.foldl fillField data := by
  apply ext_fieldIn
  · intro object
    rw [isSome_get?_foldl_fillField, isSome_get?_foldl_fillField]
  · intro path
    rw [fieldIn_foldl_fillField, fieldIn_foldl_fillField]
    simp only [h]

/-! ## Seeding -/

/-- Whether a snapshot is another one with the empty fields that its rules mention: nothing but the
fields differs, there are records of the same objects, and a field is new exactly if it was missing
in a record and a registered rule mentions it; then it is empty. -/
structure Seeded (snapshot snapshot' : Snapshot) : Prop where
  others : snapshot' = { snapshot with data := snapshot'.data }
  record : ∀ object, (snapshot'.record? object).isSome = (snapshot.record? object).isSome
  field : ∀ path, snapshot'.field? path = (snapshot.field? path).or
    (if (snapshot.record? path.object).isSome ∧ path ∈ snapshot.mentionedPaths
      then some (.text "") else none)

/-- **Seeding is one function.** Just one snapshot is seeded: that in which the fields are filled in
that rules mention.

**Proof sketch.** A seeded snapshot has the records and the fields that filling in gives, by
`Targeting.Snapshot.field?_fillMentioned`, and data is determined by these. -/
theorem seeded_iff {snapshot snapshot' : Snapshot} :
    snapshot.Seeded snapshot' ↔ snapshot' = snapshot.fillMentioned := by
  constructor
  · intro h
    have hrecord : ∀ object, (snapshot'.record? object).isSome =
        (snapshot.fillMentioned.record? object).isSome := by
      intro object
      rw [h.record, isSome_record?_fillMentioned]
    have hfield : ∀ path, snapshot'.field? path = snapshot.fillMentioned.field? path := by
      intro path
      rw [h.field, field?_fillMentioned]
    have hdata : snapshot'.data = snapshot.fillMentioned.data := ext_fieldIn hrecord hfield
    rw [h.others, hdata]
    rfl
  · rintro rfl
    exact ⟨rfl, isSome_record?_fillMentioned snapshot, field?_fillMentioned snapshot⟩

/-- A rule mentions a field exactly when it can be cut into lexemes and one of these is the word
that the path of the field is, divided at its first point. -/
lemma mem_mentioned_iff_of_text {rule : String} {path : FieldPath} :
    path ∈ mentioned rule ↔ path.field ≠ "" ∧ '.' ∉ path.object.toList ∧
      ∃ lexemes, lexemesOf rule = .ok lexemes ∧ .word path.text ∈ lexemes.map (·.value) := by
  rw [mem_mentioned_iff]
  constructor
  · rintro ⟨lexemes, hlexemes, word, column, hmem, hword⟩
    obtain ⟨rfl, hobject, hfield⟩ := FieldPath.ofWord?_eq_some_iff.1 hword
    exact ⟨hfield, hobject, lexemes, hlexemes, List.mem_map.2 ⟨_, hmem, rfl⟩⟩
  · rintro ⟨hfield, hobject, lexemes, hlexemes, hword⟩
    obtain ⟨⟨value, column⟩, hmem, rfl⟩ := List.mem_map.1 hword
    exact ⟨lexemes, hlexemes, path.text, column, hmem,
      FieldPath.ofWord?_eq_some_iff.2 ⟨rfl, hobject, hfield⟩⟩

/-- In a seeded snapshot no field is missing that a rule mentions, so seeding it again adds
nothing. -/
theorem fillMentioned_fillMentioned (snapshot : Snapshot) :
    snapshot.fillMentioned.fillMentioned = snapshot.fillMentioned := by
  refine (seeded_iff.1 ⟨rfl, fun _ => rfl, fun path => ?_⟩).symm
  have hrules : snapshot.fillMentioned.mentionedPaths = snapshot.mentionedPaths := rfl
  rw [hrules, isSome_record?_fillMentioned, field?_fillMentioned, Option.or_assoc, Option.or_self]

namespace Draft

/-- Whether a draft is finished to a snapshot when its rules are gone through in some order. -/
def Finishes (draft : Draft) (snapshot : Snapshot) : Prop :=
  match draft.policy with
  | .strict => snapshot = draft.snapshot
  | .lenient => ∃ entries : List (String × String), entries.Perm draft.snapshot.rules.entries ∧
      snapshot = { draft.snapshot with
        data := (entries.flatMap fun entry => mentioned entry.2).foldl fillField
          draft.snapshot.data }

/-- **The order of the rules does not matter.** In whatever order its rules are gone through, a
draft is finished to the same snapshot. -/
theorem finishes_iff {draft : Draft} {snapshot : Snapshot} :
    draft.Finishes snapshot ↔ snapshot = draft.finish := by
  unfold Finishes finish
  cases draft.policy with
  | strict => exact Iff.rfl
  | lenient =>
    constructor
    · rintro ⟨entries, hperm, rfl⟩
      have hpaths : (entries.flatMap fun entry => mentioned entry.2).Perm
          (draft.snapshot.rules.entries.flatMap fun entry => mentioned entry.2) :=
        hperm.flatMap_right _
      rw [foldl_fillField_congr fun _ => hpaths.mem_iff]
      rfl
    · rintro rfl
      exact ⟨_, .refl _, rfl⟩

/-- **Seeding is exact.** A lenient draft is finished with its attributes and rules as they are,
with records of the same objects, and with the value of every field that it has. A field that it
lacks has a value afterwards exactly if its path is not empty, the object has a record, and the word
of the object, a point and the path, divided at its first point, stands in a registered rule that
can be cut into lexemes; the value is the empty text then. In whatever order the rules are gone
through, the snapshot is the same, and a draft that begins with it is finished as it is.

**Proof sketch.** A lenient draft is finished by filling in what its rules mention, which is the
only snapshot that is seeded from it, by `Targeting.Snapshot.seeded_iff`. So a field has its old
value, or the empty text where its object has a record and its path is mentioned, and
`Targeting.Snapshot.mem_mentioned_iff_of_text` says what rules mention. Filling in twice is filling
in once, which is the last part. -/
theorem finish_adds_mentioned (draft : Draft) (hpolicy : draft.policy = .lenient) :
    draft.finish = { draft.snapshot with data := draft.finish.data } ∧
    (∀ object, (draft.finish.record? object).isSome = (draft.snapshot.record? object).isSome) ∧
    (∀ path value, draft.snapshot.field? path = some value →
      draft.finish.field? path = some value) ∧
    (∀ object field value, draft.snapshot.field? ⟨object, field⟩ = none →
      (draft.finish.field? ⟨object, field⟩ = some value ↔
        value = .text "" ∧ field ≠ "" ∧ (draft.snapshot.record? object).isSome = true ∧
          '.' ∉ object.toList ∧ ∃ audience rule lexemes,
            draft.snapshot.rule? audience = some rule ∧ lexemesOf rule = .ok lexemes ∧
              .word (object ++ "." ++ field) ∈ lexemes.map (·.value))) ∧
    (∀ snapshot, draft.Finishes snapshot ↔ snapshot = draft.finish) ∧
    ∀ policy, (Draft.mk draft.finish policy).finish = draft.finish := by
  have hfinish : draft.finish = draft.snapshot.fillMentioned := by rw [finish, hpolicy]
  have hseeded : draft.snapshot.Seeded draft.finish := seeded_iff.2 hfinish
  refine ⟨hseeded.others, hseeded.record, fun path value hvalue => ?kept,
    fun object field value hnone => ?added, fun _ => finishes_iff, fun policy => ?again⟩
  case kept => rw [hseeded.field, hvalue, Option.some_or]
  case added =>
    have hmentioned : ⟨object, field⟩ ∈ draft.snapshot.mentionedPaths ↔
        ∃ audience rule, draft.snapshot.rule? audience = some rule ∧ field ≠ "" ∧
          '.' ∉ object.toList ∧ ∃ lexemes, lexemesOf rule = .ok lexemes ∧
            .word (object ++ "." ++ field) ∈ lexemes.map (·.value) := by
      simp only [mem_mentionedPaths_iff, mem_mentioned_iff_of_text, FieldPath.text]
    rw [hseeded.field, hnone, Option.none_or]
    split_ifs with h
    · obtain ⟨hrecord, hpath⟩ := h
      obtain ⟨audience, rule, hrule, hfield, hobject, lexemes, hlexemes⟩ := hmentioned.1 hpath
      rw [Option.some.injEq, eq_comm]
      exact (and_iff_left ⟨hfield, hrecord, hobject, audience, rule, lexemes, hrule, hlexemes⟩).symm
    · refine iff_of_false id ?_
      rintro ⟨-, hfield, hrecord, hobject, audience, rule, lexemes, hrule, hlexemes⟩
      exact h ⟨hrecord, hmentioned.2 ⟨audience, rule, hrule, hfield, hobject, lexemes, hlexemes⟩⟩
  case again =>
    rw [hfinish]
    cases policy with
    | strict => rfl
    | lenient => exact fillMentioned_fillMentioned draft.snapshot

/-- Of the fields that a rule mentions one is there, one is missing, one is quoted and one is of an
object without a record; and a rule with a quoted text that does not end mentions nothing.

**Proof sketch.** That the second rule mentions the industry is computed, as are the records of the
draft. The theorem puts the empty text there, keeps the name, and adds no record. -/
theorem finish_adds_mentioned_industry :
    let draft : Draft :=
      { snapshot :=
          { rules := .ofList
              [("Broken", "Account.Tier == 'Gold"),
                ("Tech", "Account.Name =~ 'Account.Site' || Account.Industry == Contact.Email")]
            data := .ofList [("Account", .ofList [("Name", .text "Acme")])] } }
    draft.policy = .lenient ∧
      draft.finish.field? ⟨"Account", "Name"⟩ = some (.text "Acme") ∧
      draft.finish.field? ⟨"Account", "Industry"⟩ = some (.text "") ∧
      (draft.finish.record? "Contact").isSome = false ∧
      (Draft.mk draft.finish .lenient).finish = draft.finish := by
  intro draft
  obtain ⟨-, hrecord, hkept, hadded, -, hagain⟩ := draft.finish_adds_mentioned rfl
  have hmentioned : ⟨"Account", "Industry"⟩ ∈
      mentioned "Account.Name =~ 'Account.Site' || Account.Industry == Contact.Email" := by
    decide +kernel
  obtain ⟨hfield, hobject, lexemes, hlexemes⟩ := mem_mentioned_iff_of_text.1 hmentioned
  refine ⟨rfl, hkept _ _ (by decide +kernel), ?_, (hrecord "Contact").trans (by decide +kernel),
    hagain .lenient⟩
  exact (hadded "Account" "Industry" (.text "") (by decide +kernel)).2
    ⟨rfl, hfield, by decide +kernel, hobject, "Tech", _, lexemes, by decide +kernel, hlexemes⟩

end Draft

end Targeting.Snapshot
