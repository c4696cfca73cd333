import Targeting.Definition.Basic
import Targeting.Navigation.Basic
import Targeting.Proofs.Json.Restoring

/-!
# Navigations and definitions that are read back

A navigation or a definition that was written is read as it was. Records are written with all their
fields, nulls among them, so what is read back does not rest on what absent fields leave unchanged.

The records of a navigation are held as they were sent. They are read back because the objects in
them have their fields in order, and those of a navigation that was read always have.

## Main definitions

* `Targeting.Navigation.IsOrdered` — whether the records that a navigation holds are in order.

## Main results

* `Targeting.Navigation.restores`, `Targeting.Definition.restores` — what is written is read back.
* `Targeting.Navigation.yields` — what is read is in order.
* `Targeting.readsBack_exchanged` — both, of values in any of the forms that are read.
-/

set_option autoImplicit false

namespace Targeting

open Json

/-! ## Navigations -/

/-- The members of a place. -/
def Place.members (place : Place) : List (Member Place) :=
  [⟨"country", .ofText? place.country, fun r => { r with country := place.country }⟩,
   ⟨"state", .ofText? place.state, fun r => { r with state := place.state }⟩,
   ⟨"city", .ofText? place.city, fun r => { r with city := place.city }⟩]

/-- A place is read back. -/
lemma Place.restores (place : Place) : decoder.Restores place.toJson place := by
  refine restores_record place.members ?_ (by decide) ?_ rfl
  · exact .cons (.of_restores (restores_text? place.country) ..) <|
      .cons (.of_restores (restores_text? place.state) ..) <|
      .cons (.of_restores (restores_text? place.city) ..) .nil
  · simp [members, Member.Commutes]

/-- Whether the records that a visitor comes with are in order. -/
def Visitor.IsOrdered (visitor : Visitor) : Prop :=
  ∀ entry ∈ visitor.records.entries, ∀ item ∈ entry.2, item.IsOrdered

/-- The members of what is said of a visitor. -/
def Visitor.members (visitor : Visitor) : List (Member Visitor) :=
  [⟨"profile", .ofText? visitor.profile, fun r => { r with profile := visitor.profile }⟩,
   ⟨"role", .ofText? visitor.role, fun r => { r with role := visitor.role }⟩,
   ⟨"permissions", .ofTexts visitor.permissions,
    fun r => { r with permissions := visitor.permissions }⟩,
   ⟨"location", (visitor.place.map Place.toJson).getD .null,
    fun r => { r with place := visitor.place }⟩,
   ⟨"dataBySObjectType", .ofDict .array visitor.records,
    fun r => { r with records := visitor.records }⟩]

/-- What is said of a visitor is read back, if the records are in order.

**Proof sketch.** Each field is read back by the reader of its kind, with the records as documents
that are in order. They are put into different fields, so their order does not matter, and
`Targeting.Json.restores_record` applies. -/
lemma Visitor.restores {visitor : Visitor} (h : visitor.IsOrdered) :
    decoder.Restores visitor.toJson visitor := by
  have hplace : Decoder.Restores (optional Place.decoder)
      ((visitor.place.map Place.toJson).getD .null) visitor.place :=
    restores_optional Place.restores (fun _ => nofun) visitor.place
  have hpermissions : Decoder.Restores (list text) (.ofTexts visitor.permissions)
      visitor.permissions :=
    restores_list fun s _ => restores_text s
  have hrecords : Decoder.Restores (dict (list Document.toJson)) (.ofDict .array visitor.records)
      visitor.records := by
    refine restores_dict fun entry hentry => ?_
    have hitems : Decoder.Restores (list Document.toJson) (.array (entry.2.map id)) entry.2 :=
      restores_list fun item hitem => Document.toJson_ofJson (h entry hentry item hitem)
    rwa [List.map_id] at hitems
  refine restores_record visitor.members ?_ (by decide) ?_ rfl
  · exact .cons (.of_restores (restores_text? visitor.profile) ..) <|
      .cons (.of_restores (restores_text? visitor.role) ..) <|
      .cons (.of_restores hpermissions ..) <|
      .cons (.of_restores hplace ..) <|
      .cons (.of_restores hrecords ..) .nil
  · simp [members, Member.Commutes]

/-- The members of the rule of an audience. -/
def AudienceRule.members (rule : AudienceRule) : List (Member AudienceRule) :=
  [⟨"audienceId", .string rule.audience, fun r => { r with audience := rule.audience }⟩,
   ⟨"audienceRule", .ofText? rule.rule, fun r => { r with rule := rule.rule }⟩]

/-- The rule of an audience is read back. -/
lemma AudienceRule.restores (rule : AudienceRule) : decoder.Restores rule.toJson rule := by
  refine restores_record rule.members ?_ (by decide) ?_ rfl
  · exact .cons (.of_restores (restores_text rule.audience) ..) <|
      .cons (.of_restores (restores_text? rule.rule) ..) .nil
  · simp [members, Member.Commutes]

/-- The members of a candidate. -/
def Candidate.members (candidate : Candidate) : List (Member Candidate) :=
  [⟨"audienceId", .string candidate.audience, fun r => { r with audience := candidate.audience }⟩,
   ⟨"audienceRulePriority", .ofInt candidate.priority.toInt,
    fun r => { r with priority := candidate.priority }⟩]

/-- A candidate is read back. -/
lemma Candidate.restores (candidate : Candidate) : decoder.Restores candidate.toJson candidate := by
  refine restores_record candidate.members ?_ (by decide) ?_ rfl
  · exact .cons (.of_restores (restores_text candidate.audience) ..) <|
      .cons (.of_restores (restores_int64 candidate.priority) ..) .nil
  · simp [members, Member.Commutes]

namespace Navigation

/-- Whether the records that a navigation holds are in order. -/
def IsOrdered (navigation : Navigation) : Prop := navigation.visitor.IsOrdered

/-- The members of a navigation. -/
def members (navigation : Navigation) : List (Member Navigation) :=
  [⟨"context", navigation.visitor.toJson, fun r => { r with visitor := navigation.visitor }⟩,
   ⟨"rules", .array (navigation.rules.map AudienceRule.toJson),
    fun r => { r with rules := navigation.rules }⟩,
   ⟨"rulesWithPriority", .array (navigation.candidates.map Candidate.toJson),
    fun r => { r with candidates := navigation.candidates }⟩]

/-- A navigation is read back, if its records are in order. -/
theorem restores {navigation : Navigation} (h : navigation.IsOrdered) :
    decoder.Restores navigation.toJson navigation := by
  have hrules : Decoder.Restores (list AudienceRule.decoder)
      (.array (navigation.rules.map AudienceRule.toJson)) navigation.rules :=
    restores_list fun rule _ => rule.restores
  have hcandidates : Decoder.Restores (list Candidate.decoder)
      (.array (navigation.candidates.map Candidate.toJson)) navigation.candidates :=
    restores_list fun candidate _ => candidate.restores
  refine restores_record navigation.members ?_ (by decide) ?_ rfl
  · exact .cons (.of_restores (Visitor.restores h) ..) <|
      .cons (.of_restores hrules ..) <|
      .cons (.of_restores hcandidates ..) .nil
  · simp [members, Member.Commutes]

end Navigation

/-- The records in what is read of a visitor are in order. -/
lemma Visitor.yields : decoder.Yields IsOrdered := by
  have hrecords : Decoder.Yields (dict (list Document.toJson)) fun records =>
      ∀ entry ∈ records.entries, ∀ item ∈ entry.2, item.IsOrdered :=
    yields_dict (yields_list fun _ _ => isOrdered_of_toJson)
  refine yields_record ?_ (fun entry hentry => absurd hentry List.not_mem_nil)
  simp only [Preserve, List.forall_mem_cons]
  refine ⟨Field.keeps_of_yields (.trivial _) fun _ _ _ => id,
    Field.keeps_of_yields (.trivial _) fun _ _ _ => id,
    Field.keeps_of_yields (.trivial _) fun _ _ _ => id,
    Field.keeps_of_yields (.trivial _) fun _ _ _ => id,
    Field.keeps_of_yields hrecords fun _ _ h _ => h, by simp⟩

/-- The records of a navigation that is read are in order. -/
theorem Navigation.yields : decoder.Yields IsOrdered := by
  have hinitial : Visitor.IsOrdered {} := fun entry hentry => absurd hentry List.not_mem_nil
  refine yields_record ?_ hinitial
  simp only [Preserve, List.forall_mem_cons]
  exact ⟨Field.keeps_of_yields Visitor.yields fun _ _ h _ => h,
    Field.keeps_of_yields (.trivial _) fun _ _ _ => id,
    Field.keeps_of_yields (.trivial _) fun _ _ _ => id, by simp⟩

/-! ## Definitions -/

/-- The members of the details of a criterion. -/
def CriterionDetails.members (details : CriterionDetails) : List (Member CriterionDetails) :=
  [⟨"entityField", .string details.entityField,
    fun r => { r with entityField := details.entityField }⟩,
   ⟨"entityType", .string details.entityType, fun r => { r with entityType := details.entityType }⟩,
   ⟨"fieldValue", .string details.fieldValue, fun r => { r with fieldValue := details.fieldValue }⟩,
   ⟨"permissionName", .string details.permissionName,
    fun r => { r with permissionName := details.permissionName }⟩,
   ⟨"permissionType", .string details.permissionType,
    fun r => { r with permissionType := details.permissionType }⟩,
   ⟨"audienceDeveloperName", .string details.audienceDeveloperName,
    fun r => { r with audienceDeveloperName := details.audienceDeveloperName }⟩,
   ⟨"profile", .string details.profile, fun r => { r with profile := details.profile }⟩]

/-- The details of a criterion are read back. -/
lemma CriterionDetails.restores (details : CriterionDetails) :
    decoder.Restores details.toJson details := by
  refine restores_record details.members ?_ (by decide) ?_ rfl
  · exact .cons (.of_restores (restores_text details.entityField) ..) <|
      .cons (.of_restores (restores_text details.entityType) ..) <|
      .cons (.of_restores (restores_text details.fieldValue) ..) <|
      .cons (.of_restores (restores_text details.permissionName) ..) <|
      .cons (.of_restores (restores_text details.permissionType) ..) <|
      .cons (.of_restores (restores_text details.audienceDeveloperName) ..) <|
      .cons (.of_restores (restores_text details.profile) ..) .nil
  · simp [members, Member.Commutes]

/-- The members of a criterion. -/
def Criterion.members (criterion : Criterion) : List (Member Criterion) :=
  [⟨"criteriaNumber", .ofInt criterion.number.toNat,
    fun r => { r with number := .ofNat criterion.number.toNat }⟩,
   ⟨"criterionValue", criterion.details.toJson, fun r => { r with details := criterion.details }⟩,
   ⟨"operator", .string criterion.operator, fun r => { r with operator := criterion.operator }⟩,
   ⟨"type", .string criterion.type, fun r => { r with type := criterion.type }⟩]

/-- A criterion is read back. -/
lemma Criterion.restores (criterion : Criterion) : decoder.Restores criterion.toJson criterion := by
  refine restores_record criterion.members ?_ (by decide) ?_ ?_
  · exact .cons (.of_restores (restores_natural criterion.number) ..) <|
      .cons (.of_restores criterion.details.restores ..) <|
      .cons (.of_restores (restores_text criterion.operator) ..) <|
      .cons (.of_restores (restores_text criterion.type) ..) .nil
  · simp [members, Member.Commutes]
  · simp only [members, List.foldl_cons, List.foldl_nil, UInt32.ofNat_toNat]

/-- The members of a definition. -/
def Definition.members (definition : Definition) : List (Member Definition) :=
  [⟨"name", .string definition.name, fun r => { r with name := definition.name }⟩,
   ⟨"criteria", .array (definition.criteria.map Criterion.toJson),
    fun r => { r with criteria := definition.criteria }⟩,
   ⟨"formula", .ofText? definition.formula, fun r => { r with formula := definition.formula }⟩,
   ⟨"formulaFilterType", .string definition.combination.name,
    fun r => { r with combination := definition.combination }⟩]

/-- A definition is read back. -/
theorem Definition.restores (definition : Definition) :
    decoder.Restores definition.toJson definition := by
  have hcriteria : Decoder.Restores (list Criterion.decoder)
      (.array (definition.criteria.map Criterion.toJson)) definition.criteria :=
    restores_list fun criterion _ => criterion.restores
  have hcombination : Combination.ofName? definition.combination.name =
      some definition.combination := by
    cases definition.combination <;> decide
  refine restores_record definition.members ?_ (by decide) ?_ rfl
  · exact .cons (.of_restores (restores_text definition.name) ..) <|
      .cons (.of_restores hcriteria ..) <|
      .cons (.of_restores (restores_text? definition.formula) ..) <|
      .cons (.of_restores (restores_oneOf hcombination) ..) .nil
  · simp [members, Member.Commutes]

/-! ## Both -/

/-- **What is exchanged is read back.** A navigation whose records are in order and a definition are
read from the values that they are written as. A value that is read as a navigation, from objects or
arrays, with fields absent, null or unknown, is one of a navigation whose records are in order; so
the navigation, written again, is read as the same navigation. The same holds of definitions. -/
theorem readsBack_exchanged :
    (∀ navigation : Navigation, navigation.IsOrdered →
      Navigation.decoder.ofValue navigation.toJson = .ok navigation) ∧
    (∀ definition : Definition, Definition.decoder.ofValue definition.toJson = .ok definition) ∧
    (∀ value navigation, Navigation.decoder.ofValue value = .ok navigation →
      navigation.IsOrdered ∧ Navigation.decoder.ofValue navigation.toJson = .ok navigation) ∧
    ∀ value definition, Definition.decoder.ofValue value = .ok definition →
      Definition.decoder.ofValue definition.toJson = .ok definition := by
  refine ⟨fun _ h => (Navigation.restores h).ofValue, fun definition => definition.restores.ofValue,
    fun value navigation h => ?_, fun _ definition _ => definition.restores.ofValue⟩
  have hordered : navigation.IsOrdered := Navigation.yields.ofValue h
  exact ⟨hordered, (Navigation.restores hordered).ofValue⟩

/-- A navigation from an object with an unknown field, whose visitor is an array that leaves out the
records, and another one with a record; and a definition from an array with a null.

**Proof sketch.** What the three values are read as is computed. That the second navigation is in
order is seen from its one record. The rest is the theorem. -/
theorem readsBack_exchanged_forms :
    let sent : Json := .object [("context", .array [.null, .string "Admin"]),
      ("rules", .array [.array [.string "A"]]), ("version", .ofInt 2)]
    let navigation : Navigation :=
      { visitor := { role := some "Admin" }, rules := [{ audience := "A" }] }
    let record : Json := .object [("Id", .ofInt 7), ("Name", .string "Acme")]
    let other : Navigation := { visitor := { records := .ofList [("Account", [record])] } }
    let form : Json := .array [.string "D", .array [], .null, .string "AnyCriterionMatches"]
    let definition : Definition := { name := "D", combination := .any }
    Navigation.decoder.ofValue sent = .ok navigation ∧
      Navigation.decoder.ofValue navigation.toJson = .ok navigation ∧
      other.IsOrdered ∧ Navigation.decoder.ofValue other.toJson = .ok other ∧
      Definition.decoder.ofValue form = .ok definition ∧
      Definition.decoder.ofValue definition.toJson = .ok definition := by
  intro sent navigation record other form definition
  obtain ⟨hnavigation, -, hreadNavigation, hreadDefinition⟩ := readsBack_exchanged
  have hsent : Navigation.decoder.ofValue sent = .ok navigation := rfl
  have hform : Definition.decoder.ofValue form = .ok definition := rfl
  have hordered : other.IsOrdered := by
    intro entry hentry item hitem
    obtain rfl : entry = ("Account", [record]) := List.mem_singleton.1 hentry
    obtain rfl : item = record := List.mem_singleton.1 hitem
    have hnames : [("Id", Json.ofInt 7), ("Name", .string "Acme")].Pairwise (·.1 < ·.1) := by
      refine .cons (fun field hfield => ?_) (List.pairwise_singleton _ _)
      obtain rfl := List.mem_singleton.1 hfield
      decide
    exact ⟨hnames, trivial, trivial, trivial⟩
  exact ⟨hsent, (hreadNavigation sent navigation hsent).2, hordered, hnavigation other hordered,
    hform, hreadDefinition form definition hform⟩

end Targeting
