import Mathlib.Data.List.Forall2
import Targeting.Navigation.Snapshot
import Targeting.Proofs.Snapshot.Seeding
import Targeting.Proofs.Sorted.Dict

/-!
# What a navigation says of a visitor

The snapshot of a navigation is built step by step, but what it holds can be said at once. It has a
record of each object that the navigation lists, and the value of a field is that in the last of the
object's records that have the field when they are made flat: a later record replaces what it has of
an earlier one and leaves the rest. An audience has the rule of the last entry that speaks of it.

Neither the objects, nor the fields of a flat record, nor the rules in the table have an order of
their own. In whatever order they are gone through, the same snapshot is built.

## Main definitions

* `Targeting.Navigation.field?`, `Targeting.Navigation.rule?` — what a navigation says of a field
  and of an audience.
* `Targeting.Navigation.Describes` — whether a snapshot holds what a navigation says.
* `Targeting.Navigation.Builds` — whether a snapshot is built from a navigation in some order.

## Main results

* `Targeting.Snapshot.Draft.gains_foldl` — what a draft gains from several steps.
* `Targeting.Navigation.Steps.describes` — what is built in any order.
* `Targeting.Navigation.builds_iff` — the snapshots that are built from a navigation.
-/

set_option autoImplicit false

namespace Targeting

/-! ## Drafts that gain records -/

namespace Snapshot.Draft

/-- Whether a draft has gained records: nothing but the records differs, there are records of
certain objects and of those that had one, and a field has its new value, or else its old one. -/
structure Gains (draft draft' : Draft) (objects : List String)
    (values : FieldPath → Option Value) : Prop where
  others : draft' = { draft with snapshot.data := draft'.snapshot.data }
  record : ∀ object, (draft'.snapshot.record? object).isSome = true ↔
    object ∈ objects ∨ (draft.snapshot.record? object).isSome = true
  field : ∀ path, draft'.snapshot.field? path = (values path).or (draft.snapshot.field? path)

namespace Gains

variable {draft draft' draft'' : Draft} {objects objects' : List String}
  {values values' : FieldPath → Option Value}

/-- A draft gains nothing from no step. -/
lemma refl (draft : Draft) : draft.Gains draft [] fun _ => none :=
  ⟨rfl, by simp, by simp⟩

/-- What is gained later stands before what is gained earlier. -/
lemma trans (h : draft.Gains draft' objects values) (h' : draft'.Gains draft'' objects' values') :
    draft.Gains draft'' (objects ++ objects') fun path => (values' path).or (values path) := by
  refine ⟨?_, fun object => ?_, fun path => ?_⟩
  · rw [h'.others, h.others]
  · rw [h'.record, h.record, List.mem_append, ← or_assoc, or_comm (a := object ∈ objects')]
  · rw [h'.field, h.field, Option.or_assoc]

/-- What a draft has gained may be said in other words. -/
lemma congr (h : draft.Gains draft' objects values)
    (hobjects : ∀ object, object ∈ objects ↔ object ∈ objects')
    (hvalues : ∀ path, values path = values' path) : draft.Gains draft' objects' values' :=
  ⟨h.others, fun object => (h.record object).trans (or_congr_left (hobjects object)),
    fun path => hvalues path ▸ h.field path⟩

end Gains

/-- A draft gains the fields that are put into the record of an object, in whatever order. -/
lemma gains_fields {fields : List (String × Value)} {record : Dict Value}
    (h : fields.Perm record.entries) (draft : Draft) (object : String) :
    draft.Gains (draft.edit (.fields object fields)) [object]
      fun path => if path.object = object then record.get? path.field else none := by
  refine ⟨rfl, fun other => ?_, fun path => ?_⟩
  · change ((draft.snapshot.data.insert object _).get? other).isSome = true ↔ _
    rw [Dict.get?_insert, List.mem_singleton]
    split_ifs with hobject
    · simp [hobject]
    · simp [hobject, record?]
  · change fieldIn (draft.snapshot.data.insert object (fields.foldl
      (fun record entry => record.insert entry.1 entry.2) _)) path = _
    rw [fieldIn_insert]
    split_ifs with hobject
    · rw [Dict.get?_foldl_insert h, field?, hobject]
      cases draft.snapshot.record? object <;> rfl
    · rfl

/-- **What a draft gains step by step.** Steps of which each gains something for an item together
gain what the last of the items has.

**Proof sketch.** Induction on the items: what the later ones have stands before what the first one
has. -/
theorem gains_foldl {α : Type} {items : List α} {blocks : List (List Edit)} {object : α → String}
    {values : α → FieldPath → Option Value}
    (h : List.Forall₂ (fun a block => ∀ draft : Draft,
      draft.Gains (block.foldl edit draft) [object a] (values a)) items blocks) (draft : Draft) :
    draft.Gains (blocks.flatten.foldl edit draft) (items.map object)
      fun path => lastOf? (values · path) items := by
  induction h generalizing draft with
  | nil => exact .refl draft
  | @cons a block items blocks hfirst _ ih =>
    rw [List.flatten_cons, List.foldl_append]
    have htogether := (hfirst draft).trans (ih _)
    simp only [← lastOf?_cons] at htogether
    exact htogether

end Snapshot.Draft

/-! ## What a navigation says -/

/-- The names of a place are those that are not empty. -/
lemma Place.mem_names_iff {place : Place} {name : String} :
    name ∈ place.names ↔ name ≠ "" ∧
      (place.country = some name ∨ place.state = some name ∨ place.city = some name) := by
  rw [Place.names, List.mem_filter, and_comm]
  refine and_congr (by simp) ?_
  simp only [List.mem_filterMap, List.mem_cons, List.not_mem_nil, or_false, id_eq, exists_eq_right]
  simp only [eq_comm]

namespace Navigation

/-- The fields of a record when it is made flat; a record that is no object has none. -/
def recordFields (record : Json) : Dict Value :=
  if record.isObject then flatRecord "" ∅ record else ∅

/-- What a navigation says of a field: its value in the last of the object's records that has it. -/
def field? (navigation : Navigation) (path : FieldPath) : Option Value :=
  (navigation.visitor.records.get? path.object).bind fun records =>
    lastOf? (fun record => (recordFields record).get? path.field) records

/-- What a navigation says of an audience: the rule of its last entry, where a rule that is absent
is empty. -/
def rule? (navigation : Navigation) (audience : String) : Option String :=
  lastOf? (fun rule : AudienceRule =>
    if rule.audience = audience then some (rule.rule.getD "") else none) navigation.rules

/-- Whether a snapshot holds what a navigation says, and nothing else. -/
structure Describes (navigation : Navigation) (snapshot : Snapshot) : Prop where
  profile : snapshot.profile = navigation.visitor.profile.getD ""
  role : snapshot.role = navigation.visitor.role.getD ""
  domain : snapshot.domain = ""
  audience : snapshot.audience = ""
  permission : ∀ name, name ∈ snapshot.permission ↔ name ∈ navigation.visitor.permissions
  location : ∀ name, name ∈ snapshot.location ↔ name ≠ "" ∧
    ∃ place, navigation.visitor.place = some place ∧
      (place.country = some name ∨ place.state = some name ∨ place.city = some name)
  rule : ∀ audience, snapshot.rule? audience = navigation.rule? audience
  record : ∀ object, (snapshot.record? object).isSome = true ↔
    object ∈ navigation.visitor.records.keys
  field : ∀ path, snapshot.field? path = navigation.field? path

/-- There is just one snapshot that holds what a navigation says.

**Proof sketch.** The attributes are told by the navigation. The sets, the rules and the records are
told by what is in them, and a map or a set is told by its look-ups. -/
lemma Describes.unique {navigation : Navigation} {snapshot snapshot' : Snapshot}
    (h : navigation.Describes snapshot) (h' : navigation.Describes snapshot') :
    snapshot = snapshot' := by
  have hpermission : snapshot.permission = snapshot'.permission :=
    NameSet.ext_mem fun name => (h.permission name).trans (h'.permission name).symm
  have hlocation : snapshot.location = snapshot'.location :=
    NameSet.ext_mem fun name => (h.location name).trans (h'.location name).symm
  have hrules : snapshot.rules = snapshot'.rules :=
    Dict.ext_get? fun audience => (h.rule audience).trans (h'.rule audience).symm
  have hdata : snapshot.data = snapshot'.data := by
    refine Snapshot.ext_fieldIn (fun object => ?_) fun path => ?_
    · exact Bool.eq_iff_iff.2 ((h.record object).trans (h'.record object).symm)
    · exact (h.field path).trans (h'.field path).symm
  obtain ⟨⟩ := snapshot
  obtain ⟨⟩ := snapshot'
  obtain rfl := h.profile.trans h'.profile.symm
  obtain rfl := h.role.trans h'.role.symm
  obtain rfl := h.domain.trans h'.domain.symm
  obtain rfl := h.audience.trans h'.audience.symm
  subst hpermission hlocation hrules hdata
  rfl

/-! ## Building in some order -/

/-- The first steps, which set the attributes of the visitor and the field policy. -/
def attributeEdits (navigation : Navigation) (policy : FieldPolicy) : List Snapshot.Edit :=
  [.profile (navigation.visitor.profile.getD ""), .role (navigation.visitor.role.getD ""),
    .permissions navigation.visitor.permissions,
    .locations ((navigation.visitor.place.map Place.names).getD []), .policy policy]

/-- The draft after the first steps. -/
lemma foldl_attributeEdits (navigation : Navigation) (policy : FieldPolicy) :
    (navigation.attributeEdits policy).foldl Snapshot.Draft.edit {} =
      { policy
        snapshot :=
          { profile := navigation.visitor.profile.getD ""
            role := navigation.visitor.role.getD ""
            permission := .ofList navigation.visitor.permissions
            location := .ofList ((navigation.visitor.place.map Place.names).getD []) } } := rfl

/-- The last steps, which register rules. -/
def ruleEdits (rules : List AudienceRule) : List Snapshot.Edit :=
  rules.map fun rule => .rule rule.audience (rule.rule.getD "")

/-- Whether steps put the records of an object into a snapshot, the fields of each record in some
order. -/
def RecordSteps (object : String) (records : List Json) (steps : List Snapshot.Edit) : Prop :=
  ∃ blocks : List (List Snapshot.Edit),
    List.Forall₂ (fun record block => ∃ fields : List (String × Value),
      fields.Perm (recordFields record).entries ∧ block = [.fields object fields]) records blocks ∧
    steps = .record object :: blocks.flatten

/-- Whether steps build the snapshot of a navigation, its objects in some order. -/
def Steps (navigation : Navigation) (policy : FieldPolicy) (steps : List Snapshot.Edit) : Prop :=
  ∃ (objects : List (String × List Json)) (blocks : List (List Snapshot.Edit)),
    objects.Perm navigation.visitor.records.entries ∧
    List.Forall₂ (fun entry block => RecordSteps entry.1 entry.2 block) objects blocks ∧
    steps = navigation.attributeEdits policy ++ (blocks.flatten ++ ruleEdits navigation.rules)

/-- Whether a snapshot is built from a navigation when the objects, the fields of each flat record
and the table of rules are gone through in some order. -/
def Builds (navigation : Navigation) (policy : FieldPolicy) (snapshot : Snapshot) : Prop :=
  ∃ steps, navigation.Steps policy steps ∧ (steps.foldl Snapshot.Draft.edit {}).Finishes snapshot

/-- The steps of a navigation go through everything in some order.

**Proof sketch.** The order that a navigation itself takes is one of those that are admitted:
objects, records and fields each in their own order, so every permutation is the identity. -/
lemma steps_edits (navigation : Navigation) (policy : FieldPolicy) :
    navigation.Steps policy (navigation.edits policy) := by
  refine ⟨navigation.visitor.records.entries,
    navigation.visitor.records.entries.map fun entry => recordEdits entry.1 entry.2,
    .refl _, ?_, ?_⟩
  · rw [List.forall₂_map_right_iff, List.forall₂_same]
    rintro ⟨object, records⟩ -
    refine ⟨records.map fun record => [.fields object (recordFields record).entries], ?_, ?_⟩
    · rw [List.forall₂_map_right_iff, List.forall₂_same]
      exact fun record _ => ⟨_, .refl _, rfl⟩
    · have hentries : ∀ record : Json, (recordFields record).entries =
          if record.isObject then (flatRecord "" ∅ record).entries else [] := by
        intro record
        unfold recordFields
        split_ifs <;> rfl
      rw [recordEdits, ← List.flatMap_def, ← List.map_eq_flatMap]
      simp only [hentries]
  · rw [edits, List.append_assoc, ← List.flatMap_def]
    rfl

/-- A draft gains from the records of an object what the last of them has.

**Proof sketch.** Each block of steps gains the fields of its record, by
`Targeting.Snapshot.Draft.gains_fields`, and several blocks gain the last of what they have, by
`Targeting.Snapshot.Draft.gains_foldl`. The first step only makes the object. -/
lemma RecordSteps.gains {object : String} {records : List Json} {steps : List Snapshot.Edit}
    (h : RecordSteps object records steps) (draft : Snapshot.Draft) :
    draft.Gains (steps.foldl Snapshot.Draft.edit draft) [object] fun path =>
      if path.object = object then
        lastOf? (fun record => (recordFields record).get? path.field) records
      else none := by
  obtain ⟨blocks, hblocks, rfl⟩ := h
  have hsteps : List.Forall₂ (fun record block => ∀ draft : Snapshot.Draft,
      draft.Gains (block.foldl Snapshot.Draft.edit draft) [object] fun path =>
        if path.object = object then (recordFields record).get? path.field else none)
      records blocks := by
    refine hblocks.imp fun record block => ?_
    rintro ⟨fields, hfields, rfl⟩ draft
    exact draft.gains_fields hfields object
  -- the object is there before its records
  have hobject := draft.gains_fields (.refl (∅ : Dict Value).entries) object
  have hrecords := Snapshot.Draft.gains_foldl hsteps (draft.edit (.record object))
  refine (hobject.trans hrecords).congr (fun other => ?_) fun path => ?_
  · simp
  · by_cases hpath : path.object = object
    · simp [hpath]
    · simp [hpath, lastOf?]

/-- The rules of a draft after the last steps.

**Proof sketch.** Induction on the rules. Each of them overwrites the text of its audience and
nothing else, so of several rules for one audience the last one remains. -/
lemma foldl_ruleEdits (rules : List AudienceRule) (draft : Snapshot.Draft) :
    (ruleEdits rules).foldl Snapshot.Draft.edit draft = { draft with
        snapshot.rules := ((ruleEdits rules).foldl Snapshot.Draft.edit draft).snapshot.rules } ∧
      ∀ audience, ((ruleEdits rules).foldl Snapshot.Draft.edit draft).snapshot.rule? audience =
        (lastOf? (fun rule : AudienceRule =>
          if rule.audience = audience then some (rule.rule.getD "") else none) rules).or
            (draft.snapshot.rule? audience) := by
  induction rules generalizing draft with
  | nil => exact ⟨rfl, fun _ => rfl⟩
  | cons rule rules ih =>
    obtain ⟨hothers, hrules⟩ := ih (draft.edit (.rule rule.audience (rule.rule.getD "")))
    refine ⟨hothers, fun audience => (hrules audience).trans ?_⟩
    rw [lastOf?_cons, Option.or_assoc, Snapshot.Draft.rule?_edit_rule]
    congr 1
    by_cases haudience : audience = rule.audience
    · simp [haudience]
    · simp [haudience, Ne.symm haudience]

/-- **What is built.** Whatever order they have, the steps of a navigation build a draft that holds
what the navigation says.

**Proof sketch.** The first steps set the attributes. Then the draft gains the records of one object
after the other, and last the rules, which change nothing else. -/
theorem Steps.describes {navigation : Navigation} {policy : FieldPolicy}
    {steps : List Snapshot.Edit} (h : navigation.Steps policy steps) :
    (steps.foldl Snapshot.Draft.edit {}).policy = policy ∧
      navigation.Describes (steps.foldl Snapshot.Draft.edit {}).snapshot := by
  obtain ⟨objects, blocks, hobjects, hblocks, rfl⟩ := h
  rw [List.foldl_append, List.foldl_append, foldl_attributeEdits]
  -- the draft after the attributes, after the records, and after the rules
  generalize hstart : Snapshot.Draft.mk _ _ = start
  have hgains := Snapshot.Draft.gains_foldl
    (hblocks.imp fun entry block hsteps => RecordSteps.gains hsteps) start
  generalize blocks.flatten.foldl Snapshot.Draft.edit start = middle at hgains ⊢
  obtain ⟨hothers, hrules⟩ := foldl_ruleEdits navigation.rules middle
  generalize (ruleEdits navigation.rules).foldl Snapshot.Draft.edit middle = final
    at hothers hrules ⊢
  obtain ⟨hmiddle, hrecord, hfield⟩ := hgains
  -- the records change the data and the rules change the rules, and neither changes more
  have hfinal : final = { start with
      snapshot.rules := final.snapshot.rules, snapshot.data := middle.snapshot.data } := by
    rw [hothers, hmiddle]
  subst hstart
  have hdata : final.snapshot.data = middle.snapshot.data := by rw [hfinal]
  have hpermission : final.snapshot.permission = .ofList navigation.visitor.permissions := by
    rw [hfinal]
  have hlocation : final.snapshot.location =
      .ofList ((navigation.visitor.place.map Place.names).getD []) := by
    rw [hfinal]
  refine ⟨by rw [hfinal], by rw [hfinal], by rw [hfinal], by rw [hfinal], by rw [hfinal],
    fun name => ?permission, fun name => ?location, fun audience => ?rule, fun object => ?record,
    fun path => ?field⟩
  case permission => rw [hpermission, NameSet.mem_ofList]
  case location =>
    rw [hlocation, NameSet.mem_ofList]
    cases navigation.visitor.place with
    | none => simp
    | some place => simp [Place.mem_names_iff]
  case rule =>
    rw [hrules, hmiddle]
    exact Option.or_none
  case record =>
    rw [Snapshot.record?, hdata]
    refine (hrecord object).trans ?_
    simp [Snapshot.record?, Dict.keys, hobjects.mem_iff]
  case field =>
    rw [Snapshot.field?, Snapshot.record?, hdata]
    refine (hfield path).trans ?_
    rw [Dict.lastOf?_entries hobjects]
    exact Option.or_none

/-- Whatever order the steps of a navigation have, one draft is finished: it holds what the
navigation says.

**Proof sketch.** By `hplain` and `Targeting.Navigation.Steps.describes` the steps lead to the same
draft in every order, as only one snapshot is described. What finishes this draft is unique, by
`Targeting.Snapshot.Draft.finishes_iff`, and there is one order of the steps at least. -/
lemma builds_iff_finish {navigation : Navigation} {policy : FieldPolicy} {snapshot plain : Snapshot}
    (hplain : navigation.Describes plain) :
    navigation.Builds policy snapshot ↔ snapshot = (Snapshot.Draft.mk plain policy).finish := by
  have hdraft : ∀ {steps}, navigation.Steps policy steps →
      steps.foldl Snapshot.Draft.edit {} = ⟨plain, policy⟩ := by
    intro steps hsteps
    obtain ⟨hpolicy, hdescribes⟩ := hsteps.describes
    generalize steps.foldl Snapshot.Draft.edit {} = draft at hpolicy hdescribes ⊢
    subst hpolicy
    rw [hplain.unique hdescribes]
  constructor
  · rintro ⟨steps, hsteps, hfinishes⟩
    rwa [hdraft hsteps, Snapshot.Draft.finishes_iff] at hfinishes
  · rintro rfl
    have hsteps := navigation.steps_edits policy
    exact ⟨_, hsteps, Snapshot.Draft.finishes_iff.2 (by rw [hdraft hsteps])⟩

/-- **Which snapshots are built.** In whatever order the objects, the fields of flat records and the
rules are gone through, just one snapshot is built from a navigation under each policy. Under the
strict one it holds what the navigation says: a record of each object that is listed, the value of
each field in the last record that has it, the last rule of each audience, and the attributes. Under
the lenient one it is the same with the empty fields that the rules mention.

**Proof sketch.** What the steps build in any order holds what the navigation says, and there is
only one such snapshot; and there is only one with the empty fields. -/
theorem builds_iff (navigation : Navigation) (snapshot : Snapshot) :
    (navigation.Builds .strict snapshot ↔ navigation.Describes snapshot) ∧
    (navigation.Builds .lenient snapshot ↔
      ∃ plain, navigation.Describes plain ∧ plain.Seeded snapshot) ∧
    ∀ policy, navigation.Builds policy snapshot ↔ snapshot = navigation.snapshot policy := by
  obtain ⟨-, hplain⟩ := (navigation.steps_edits .strict).describes
  generalize ((navigation.edits .strict).foldl Snapshot.Draft.edit {}).snapshot = plain at hplain
  refine ⟨?_, ?_, fun policy => ?_⟩
  · rw [builds_iff_finish hplain]
    exact ⟨fun h => h ▸ hplain, fun h => h.unique hplain⟩
  · rw [builds_iff_finish hplain]
    constructor
    · exact fun h => ⟨plain, hplain, Snapshot.seeded_iff.2 h⟩
    · rintro ⟨other, hother, hseeded⟩
      rw [hother.unique hplain, Snapshot.seeded_iff] at hseeded
      exact hseeded
  · rw [builds_iff_finish hplain, Navigation.snapshot, Snapshot.ofEdits]
    have hbuilt : navigation.Builds policy
        ((navigation.edits policy).foldl Snapshot.Draft.edit {}).finish :=
      ⟨_, navigation.steps_edits policy, Snapshot.Draft.finishes_iff.2 rfl⟩
    rw [(builds_iff_finish hplain).1 hbuilt]

/-- A later record has one of the fields of an earlier one, and what is no object has none. -/
example :
    let navigation : Navigation :=
      { visitor :=
          { records := .ofList [("Contact",
              [.ofFields [("Email", .string "a"), ("Owner", .ofFields [("Title", .string "VP")])],
                .ofFields [("Email", .string "b")], .string "c"])] } }
    navigation.field? ⟨"Contact", "Email"⟩ = some (.text "b") ∧
      navigation.field? ⟨"Contact", "Owner.Title"⟩ = some (.text "VP") := by
  decide +kernel

end Navigation

end Targeting
