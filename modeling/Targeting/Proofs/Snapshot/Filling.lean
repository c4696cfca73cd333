import Mathlib.Tactic.SplitIfs
import Targeting.Evaluation.Operand
import Targeting.Proofs.Rule.Admission

/-!
# Fields that are filled in

A lenient draft is finished with empty fields wherever a registered rule mentions a field that a
record lacks. Filling in adds no record, changes no field that is there and no operand, for a field
that is missing counts as the empty text anyway; what it changes is which fields a rule may speak
of.

## Main definitions

* `Targeting.Snapshot.mentionedPaths` — the fields that the registered rules mention.
* `Targeting.Snapshot.Fills` — a snapshot that another one fills in.

## Main results

* `Targeting.Snapshot.field?_fillMentioned` — the fields after filling in.
* `Targeting.Snapshot.Fills.ofVariable`, `Targeting.Snapshot.Fills.admitsAlike` — operands are the
  same in a snapshot that is filled in, and more fields are admitted.
* `Targeting.Snapshot.Draft.finish_fills` — a rule for one more audience only fills in fields.
-/

set_option autoImplicit false

namespace Targeting.Snapshot

/-! ## Records -/

/-- The value of a field in a table of records. -/
def fieldIn (data : Dict (Dict Value)) (path : FieldPath) : Option Value :=
  (data.get? path.object).bind (·.get? path.field)

/-- Filling in a field adds no record. -/
lemma isSome_get?_fillField (data : Dict (Dict Value)) (path : FieldPath) (object : String) :
    ((fillField data path).get? object).isSome = (data.get? object).isSome := by
  unfold fillField
  cases hrecord : data.get? path.object with
  | none => rfl
  | some record =>
    dsimp only
    split_ifs
    · rfl
    · rw [Dict.get?_insert]
      split_ifs with heq
      · rw [heq, hrecord]
        rfl
      · rfl

/-- The fields after the record of one object is replaced. -/
lemma fieldIn_insert (data : Dict (Dict Value)) (object : String) (record : Dict Value)
    (path : FieldPath) :
    fieldIn (data.insert object record) path =
      if path.object = object then record.get? path.field else fieldIn data path := by
  rw [fieldIn, Dict.get?_insert]
  split_ifs <;> rfl

/-- After filling in a field, the field is empty if it was missing in a record, and the other ones
are as they were.

**Proof sketch.** Without a record of the object nothing is filled in. If the record has the field,
it stays, and the right side has the old value too. If it lacks the field, the empty text is put
there, and the other field is this one, another one of the same record, or one of another record. -/
lemma fieldIn_fillField (data : Dict (Dict Value)) (path other : FieldPath) :
    fieldIn (fillField data path) other =
      (fieldIn data other).or
        (if (data.get? other.object).isSome ∧ other = path then some (.text "") else none) := by
  unfold fillField
  cases hrecord : data.get? path.object with
  | none =>
    have hnot : ¬ ((data.get? other.object).isSome ∧ other = path) := by
      rintro ⟨hsome, rfl⟩
      simp [hrecord] at hsome
    rw [if_neg hnot, Option.or_none]
  | some record =>
    dsimp only
    have hfield : fieldIn data path = record.get? path.field := by
      rw [fieldIn, hrecord, Option.bind_some]
    -- a field that the record has is not filled in
    by_cases hthere : record.contains path.field = true
    · rw [if_pos hthere]
      by_cases heq : other = path
      · obtain ⟨value, hvalue⟩ := Option.isSome_iff_exists.1 hthere
        rw [heq, hfield, hvalue, Option.some_or]
      · rw [if_neg (fun h => heq h.2), Option.or_none]
    · have hnone : record.get? path.field = none := by simpa [Dict.contains] using hthere
      rw [if_neg hthere, fieldIn_insert, Dict.get?_insert]
      by_cases heq : other = path
      · subst heq
        simp [hfield, hnone, hrecord]
      · rw [if_neg (c := _ ∧ other = path) (fun h => heq h.2), Option.or_none]
        by_cases hobject : other.object = path.object
        · -- another field of the same record
          have hother : other.field ≠ path.field :=
            fun h => heq (by cases other; cases path; simp_all)
          rw [if_pos hobject, if_neg hother, fieldIn, hobject, hrecord, Option.bind_some]
        · rw [if_neg hobject]

/-- Filling in fields adds no record. -/
lemma isSome_get?_foldl_fillField (paths : List FieldPath) (data : Dict (Dict Value))
    (object : String) :
    ((paths.foldl fillField data).get? object).isSome = (data.get? object).isSome := by
  induction paths generalizing data with
  | nil => rfl
  | cons path paths ih => rw [List.foldl_cons, ih, isSome_get?_fillField]

/-- After filling in fields, those among them that were missing in a record are empty, and the other
ones are as they were. -/
lemma fieldIn_foldl_fillField (paths : List FieldPath) (data : Dict (Dict Value))
    (path : FieldPath) :
    fieldIn (paths.foldl fillField data) path =
      (fieldIn data path).or
        (if (data.get? path.object).isSome ∧ path ∈ paths then some (.text "") else none) := by
  induction paths generalizing data with
  | nil => simp
  | cons first paths ih =>
    rw [List.foldl_cons, ih, isSome_get?_fillField, fieldIn_fillField, Option.or_assoc]
    congr 1
    by_cases hrecord : (data.get? path.object).isSome = true
    · by_cases hfirst : path = first
      · simp [← hfirst, hrecord]
      · simp [hfirst, hrecord]
    · simp [hrecord]

/-! ## Snapshots -/

/-- The fields that the registered rules mention. -/
def mentionedPaths (snapshot : Snapshot) : List FieldPath :=
  snapshot.rules.entries.flatMap fun entry => mentioned entry.2

/-- The fields that the registered rules mention are those that one of them does. -/
lemma mem_mentionedPaths_iff {snapshot : Snapshot} {path : FieldPath} :
    path ∈ snapshot.mentionedPaths ↔
      ∃ audience rule, snapshot.rule? audience = some rule ∧ path ∈ mentioned rule := by
  simp only [mentionedPaths, List.mem_flatMap, Prod.exists, Dict.mem_entries_iff]
  rfl

/-- Filling in adds no record. -/
lemma isSome_record?_fillMentioned (snapshot : Snapshot) (object : String) :
    (snapshot.fillMentioned.record? object).isSome = (snapshot.record? object).isSome :=
  isSome_get?_foldl_fillField snapshot.mentionedPaths snapshot.data object

/-- The fields after filling in: those that were there, and empty ones that rules mention of the
records. -/
theorem field?_fillMentioned (snapshot : Snapshot) (path : FieldPath) :
    snapshot.fillMentioned.field? path =
      (snapshot.field? path).or
        (if (snapshot.record? path.object).isSome ∧ path ∈ snapshot.mentionedPaths
          then some (.text "") else none) :=
  fieldIn_foldl_fillField snapshot.mentionedPaths snapshot.data path

/-- After filling in, a rule may speak of the same fields under both policies if a registered rule
does: a record that is there has them. -/
lemma admits_fillMentioned {snapshot : Snapshot} {path : FieldPath}
    (hpath : path ∈ snapshot.mentionedPaths) (policy policy' : FieldPolicy) :
    Token.admits snapshot.fillMentioned policy path =
      Token.admits snapshot.fillMentioned policy' path := by
  have hfield : (snapshot.fillMentioned.record? path.object).isSome = true →
      (snapshot.fillMentioned.field? path).isSome = true := by
    intro hrecord
    rw [isSome_record?_fillMentioned] at hrecord
    simp [field?_fillMentioned, hrecord, hpath]
  rw [Bool.eq_iff_iff, Token.admits_eq_true_iff, Token.admits_eq_true_iff]
  constructor
  all_goals
    rintro ⟨hrecord, -⟩
    exact ⟨hrecord, .inl (hfield hrecord)⟩

/-! ## Snapshots that are filled in -/

/-- Whether a snapshot is another one with fields filled in, and with whatever rules: the attributes
are the same, there are records of the same objects, and fields are the same or new and empty. -/
structure Fills (snapshot snapshot' : Snapshot) : Prop where
  attributes : snapshot' = { snapshot with rules := snapshot'.rules, data := snapshot'.data }
  record : ∀ object, (snapshot'.record? object).isSome = (snapshot.record? object).isSome
  field : ∀ path, snapshot'.field? path = snapshot.field? path ∨
    snapshot.field? path = none ∧ snapshot'.field? path = some (.text "")

namespace Fills

variable {snapshot snapshot' : Snapshot}

/-- Variables have the same operands in a snapshot that is filled in. -/
lemma ofVariable (h : snapshot.Fills snapshot') (v : Variable) :
    Operand.ofVariable snapshot' v = Operand.ofVariable snapshot v := by
  cases v with
  | named a =>
    rw [h.attributes]
    cases a <;> rfl
  | record path =>
    have hvalue : (snapshot'.field? path).getD (.text "") =
        (snapshot.field? path).getD (.text "") := by
      rcases h.field path with heq | ⟨hnone, hempty⟩
      · rw [heq]
      · rw [hnone, hempty]
        rfl
    simp only [Operand.ofVariable, hvalue]

/-- A field is admitted in a snapshot that is filled in, or refused in both snapshots; or it is
refused in the one that is not filled in. -/
lemma admitsAlike (h : snapshot.Fills snapshot') {excused : Fault → Prop}
    (hexcused : ∀ word, excused (.unknownVariable word)) (policy : FieldPolicy) (path : FieldPath) :
    AdmitsAlike excused snapshot' snapshot policy policy path := by
  cases hrefused : Token.admits snapshot policy path with
  | false => exact .inr ⟨hrefused, hexcused _⟩
  | true =>
    obtain ⟨hrecord, hfield⟩ := Token.admits_eq_true_iff.1 hrefused
    refine .inl (hrefused.trans (Token.admits_eq_true_iff.2 ⟨?_, ?_⟩).symm)
    · rw [h.record, hrecord]
    · refine hfield.imp_left fun hsome => ?_
      rcases h.field path with heq | ⟨-, hempty⟩
      · rw [heq, hsome]
      · rw [hempty]
        rfl

end Fills

/-- A snapshot with rules that mention more fields is filled in with more fields.

**Proof sketch.** Both snapshots have the same records, so they are filled in within the same
objects. A field that was there is the same in both. A field that was missing is added in both if
the smaller snapshot mentions it, and in the larger one only if that one alone does. -/
lemma fillMentioned_fills {snapshot snapshot' : Snapshot}
    (hrules : snapshot' = { snapshot with rules := snapshot'.rules })
    (hmentioned : snapshot.mentionedPaths ⊆ snapshot'.mentionedPaths) :
    snapshot.fillMentioned.Fills snapshot'.fillMentioned := by
  have hrecord : ∀ object, snapshot'.record? object = snapshot.record? object := by
    intro object
    rw [hrules]
    rfl
  have hfield : ∀ path, snapshot'.field? path = snapshot.field? path := by
    intro path
    rw [hrules]
    rfl
  refine ⟨?_, fun object => ?_, fun path => ?_⟩
  · unfold fillMentioned
    rw [hrules]
  · rw [isSome_record?_fillMentioned, isSome_record?_fillMentioned, hrecord]
  · simp only [field?_fillMentioned, hrecord, hfield]
    cases snapshot.field? path with
    | some value => exact .inl rfl
    | none =>
      simp only [Option.none_or]
      by_cases hmore : (snapshot.record? path.object).isSome ∧ path ∈ snapshot'.mentionedPaths
      · by_cases hpath : path ∈ snapshot.mentionedPaths
        · exact .inl (by rw [if_pos hmore, if_pos ⟨hmore.1, hpath⟩])
        · exact .inr ⟨if_neg fun hold => hpath hold.2, if_pos hmore⟩
      · exact .inl (by rw [if_neg hmore, if_neg fun hold => hmore ⟨hold.1, hmentioned hold.2⟩])

/-! ## One more rule -/

namespace Draft

variable {draft : Draft} {audience : String}

/-- The finished snapshot has the rules of the draft. -/
lemma rule?_finish (draft : Draft) (audience : String) :
    draft.finish.rule? audience = draft.snapshot.rule? audience := by
  unfold finish
  cases draft.policy <;> rfl

/-- The rules of a draft after one more. -/
lemma rule?_edit_rule (draft : Draft) (audience text other : String) :
    (draft.edit (.rule audience text)).snapshot.rule? other =
      if other = audience then some text else draft.snapshot.rule? other :=
  Dict.get?_insert

/-- With a rule for one more audience, no field is left out that the rules mention. -/
lemma mentionedPaths_edit_rule (h : draft.snapshot.rule? audience = none) (text : String)
    {path : FieldPath} (hpath : path ∈ draft.snapshot.mentionedPaths) :
    path ∈ (draft.edit (.rule audience text)).snapshot.mentionedPaths := by
  obtain ⟨other, rule, hrule, hmentioned⟩ := mem_mentionedPaths_iff.1 hpath
  refine mem_mentionedPaths_iff.2 ⟨other, rule, ?_, hmentioned⟩
  rw [rule?_edit_rule, if_neg, hrule]
  rintro rfl
  rw [h] at hrule
  cases hrule

/-- **A rule for one more audience only fills in fields.** The finished snapshot is filled in, under
either policy of the draft. -/
theorem finish_fills (h : draft.snapshot.rule? audience = none) (text : String) :
    draft.finish.Fills (draft.edit (.rule audience text)).finish := by
  obtain ⟨snapshot, policy⟩ := draft
  cases policy with
  | strict => exact ⟨rfl, fun _ => rfl, fun _ => .inl rfl⟩
  | lenient => exact fillMentioned_fills rfl fun path hpath => mentionedPaths_edit_rule h text hpath

end Draft

end Targeting.Snapshot
