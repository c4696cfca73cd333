import Targeting.Proofs.Definition.Combination

/-!
# The fields that a definition lists

With its rule a definition has a table of the fields that its criteria speak of. The rule itself is
text, and which fields it speaks of is found when it is read again. Both agree as long as each path
can be written in a rule, and no criterion is dropped for another one with its number.

## Main definitions

* `Targeting.FieldTable.Lists` — the paths in a table.

## Main results

* `Targeting.Definition.fields_lists_iff` — the fields of a definition are those of its criteria.
* `Targeting.Definition.mem_tokenValues_iff` — the fields of which a rule speaks.
* `Targeting.Definition.readsBack_toRule` — which criteria are read back, and that the rule is.
-/

set_option autoImplicit false

namespace Targeting

/-! ## Tables of fields -/

/-- Whether a table lists a path. -/
def FieldTable.Lists (table : FieldTable) (path : FieldPath) : Prop :=
  ∃ fields, table.get? path.object = some fields ∧ path.field ∈ fields

/-- One more field is listed, and no other. -/
lemma FieldTable.add_lists_iff {table : FieldTable} {path other : FieldPath} :
    (table.add path).Lists other ↔ other = path ∨ table.Lists other := by
  obtain ⟨object, field⟩ := path
  obtain ⟨object', field'⟩ := other
  simp only [Lists, add, Dict.get?_insert]
  by_cases hobject : object' = object
  · subst hobject
    rw [if_pos rfl]
    cases table.get? object' <;> simp
  · rw [if_neg hobject]
    simp [hobject]

/-- The fields of conditions are those that one of them compares. -/
lemma Definition.fieldsOf_lists_iff {all : List (UInt32 × Condition)} {path : FieldPath} :
    (fieldsOf all).Lists path ↔ ∃ entry ∈ all, entry.2.field? = some path := by
  have hfold : ∀ (paths : List FieldPath) (table : FieldTable),
      (paths.foldl FieldTable.add table).Lists path ↔ path ∈ paths ∨ table.Lists path := by
    intro paths
    induction paths with
    | nil => simp
    | cons first paths ih =>
      intro table
      rw [List.foldl_cons, ih, FieldTable.add_lists_iff, List.mem_cons]
      tauto
  have hempty : ¬ FieldTable.Lists ∅ path := by
    rintro ⟨fields, hfields, -⟩
    cases hfields
  rw [fieldsOf, hfold, List.mem_filterMap]
  exact or_iff_left hempty

/-- The fields that a definition lists are those of its criteria about fields.

**Proof sketch.** Each condition is that of a criterion, by `Targeting.Definition.exists_condition`,
and it has the field of the criterion if that is about a field, and none otherwise. -/
theorem Definition.fields_lists_iff {definition : Definition} {all : List (UInt32 × Condition)}
    (h : conditions definition.ordered = .ok all) {path : FieldPath} :
    (fieldsOf all).Lists path ↔
      ∃ criterion ∈ definition.criteria, criterion.type = "FieldBased" ∧ criterion.path = path := by
  rw [fieldsOf_lists_iff]
  obtain ⟨-, rfl⟩ := conditions_eq_ok_iff.1 h
  simp only [List.mem_map, exists_exists_and_eq_and, mem_ordered]
  refine exists_congr fun criterion => and_congr_right fun hmem => ?_
  obtain ⟨condition, hcondition⟩ := exists_condition h hmem
  rw [criterion.entry_eq hcondition]
  by_cases htype : criterion.type = "FieldBased"
  · rw [Condition.field?, (criterion.subject_of_type_eq hcondition htype).1]
    simp [htype]
  · obtain ⟨a, hsubject⟩ := criterion.subject_of_type_ne hcondition htype
    rw [Condition.field?, hsubject]
    simp [htype]

/-! ## Fields of the rule -/

namespace Definition

/-- A join of conditions that are read as they were meant has their tokens, with the operator
between neighbours, and a program.

**Proof sketch.** A join spells the lexemes of its conditions with the operator between them, and
each of them is read as the token that was meant, by induction on the conditions. So the join has
these tokens. They are those of an outline, and accepted tokens of an outline have a program. -/
lemma exists_tokens_join {op : Operator} {f : Bool → Bool → Bool} (hop : op.connect? = some f)
    {snapshot : Snapshot} {first : UInt32 × Condition} {rest : List (UInt32 × Condition)}
    (h : ∀ entry ∈ first :: rest, entry.2.IsReadable snapshot) :
    ∃ tokens program, tokensOf snapshot .lenient (join op (first :: rest)) = .ok tokens ∧
      Program.ofRule snapshot .lenient (join op (first :: rest)) = .ok program ∧
      tokens.map (·.value) =
        first.2.tokenValues ++ rest.flatMap fun entry => .operator op :: entry.2.tokenValues := by
  have hcomparison : ∀ entry ∈ first :: rest, IsComparison entry.2.text :=
    fun entry hentry => (h entry hentry).1
  have hspells := spells_join op hcomparison
  have hvalues : List.Forall₂
      (fun lexeme value => Token.ofLexeme snapshot .lenient lexeme = .ok value)
      (lexemesIn first.2.text ++
        rest.flatMap fun entry => .operator op :: lexemesIn entry.2.text)
      (first.2.tokenValues ++ rest.flatMap fun entry => .operator op :: entry.2.tokenValues) := by
    obtain ⟨hfirst, hrest⟩ := List.forall_mem_cons.1 h
    refine List.rel_append hfirst.2 ?_
    clear hspells hcomparison h
    induction rest with
    | nil => exact .nil
    | cons entry rest ih =>
      obtain ⟨hentry, hothers⟩ := List.forall_mem_cons.1 hrest
      have hop : Token.ofLexeme snapshot .lenient (.operator op) = .ok (.operator op) := rfl
      rw [List.flatMap_cons, List.flatMap_cons]
      refine List.rel_append ?_ (ih hothers)
      exact .cons hop hentry.2
  obtain ⟨tokens, htokens, hmap⟩ := exists_tokensOf_iff.2 ⟨_, hspells, hvalues⟩
  obtain ⟨o, -, hlexemes, -⟩ := hasTruth_join hop hcomparison {} snapshot
  obtain ⟨program, hprogram⟩ := o.exists_program (hlexemes ▸ hspells) htokens
  exact ⟨tokens, program, htokens, hprogram, hmap⟩

/-- A field is among the tokens of joined conditions exactly when one of them compares it. -/
lemma mem_tokenValues_iff {op : Operator} {first : UInt32 × Condition}
    {rest : List (UInt32 × Condition)} {path : FieldPath} :
    .variable (.record path) ∈
        (first.2.tokenValues ++ rest.flatMap fun entry => .operator op :: entry.2.tokenValues) ↔
      ∃ entry ∈ first :: rest, entry.2.field? = some path := by
  have hcondition : ∀ condition : Condition,
      .variable (.record path) ∈ condition.tokenValues ↔ condition.field? = some path := by
    intro condition
    obtain ⟨subject, op, literal⟩ := condition
    cases subject <;> simp [Condition.tokenValues, Condition.field?, eq_comm]
  simp [hcondition]

/-- **Fields are read back.** In a snapshot that has a record of each object that is listed, a
criterion about a field is read as it was meant exactly when the path of the field can be written in
a rule. If all paths can, the rule has a program, each field that it speaks of is listed, and if no
two criteria have the same number, it speaks of each field that is listed.

**Proof sketch.** The conditions that are kept are read one by one. Those of different numbers are
all kept. -/
theorem readsBack_toRule {definition : Definition} {defined : DefinedRule}
    (hrule : definition.toRule = .ok defined) (hcombination : definition.combination ≠ .formula)
    {snapshot : Snapshot}
    (hrecords : ∀ object, (defined.fields.get? object).isSome = true →
      (snapshot.record? object).isSome = true) :
    (∀ criterion ∈ definition.criteria, criterion.type = "FieldBased" →
      (criterion.ReadsBack snapshot ↔ criterion.path.IsPlain)) ∧
    ((∀ criterion ∈ definition.criteria, criterion.type = "FieldBased" →
        criterion.path.IsPlain) →
      ∃ tokens program, tokensOf snapshot .lenient defined.rule = .ok tokens ∧
        Program.ofRule snapshot .lenient defined.rule = .ok program ∧
        (∀ path, .variable (.record path) ∈ tokens.map (·.value) → defined.fields.Lists path) ∧
        ((definition.criteria.map (·.number)).Nodup → ∀ path, defined.fields.Lists path →
          .variable (.record path) ∈ tokens.map (·.value))) := by
  obtain ⟨all, op, first, rest, hall, hop, hkept, hdefined, hfields⟩ :=
    exists_join hrule hcombination
  -- a field of a criterion is listed, so its object has a record
  have hrecord : ∀ criterion ∈ definition.criteria, criterion.type = "FieldBased" →
      (snapshot.record? criterion.path.object).isSome = true := by
    intro criterion hmem htype
    have hlists := (fields_lists_iff hall).2 ⟨criterion, hmem, htype, rfl⟩
    obtain ⟨fields, hget, -⟩ := hfields ▸ hlists
    exact hrecords _ (Option.isSome_of_mem hget)
  constructor
  · intro criterion hmem htype
    obtain ⟨condition, hcondition⟩ := exists_condition hall hmem
    exact Criterion.readsBack_iff hcondition htype (hrecord criterion hmem htype)
  · intro hplain
    have hread : ∀ entry ∈ first :: rest, entry.2.IsReadable snapshot := by
      rw [← hkept]
      intro entry hentry
      obtain ⟨criterion, hmem, -, rfl⟩ := (mem_keepLast_iff hall).1 hentry
      obtain ⟨condition, hcondition⟩ := exists_condition hall hmem
      rw [criterion.entry_eq hcondition]
      exact Criterion.isReadable hcondition fun htype =>
        ⟨hplain criterion hmem htype, hrecord criterion hmem htype⟩
    obtain ⟨f, hf⟩ := exists_connect? hop
    obtain ⟨tokens, program, htokens, hprogram, hvalues⟩ := exists_tokens_join hf hread
    have hmem : ∀ path, .variable (.record path) ∈ tokens.map (·.value) ↔
        ∃ entry ∈ keepLast all, entry.2.field? = some path := by
      intro path
      rw [hvalues, mem_tokenValues_iff, hkept]
    rw [hdefined, hfields]
    refine ⟨tokens, program, htokens, hprogram, fun path hpath => ?_, fun hnodup path hpath => ?_⟩
    · obtain ⟨entry, hentry, hfield⟩ := (hmem path).1 hpath
      exact fieldsOf_lists_iff.2 ⟨entry, (keepLast_sublist all).subset hentry, hfield⟩
    · obtain ⟨entry, hentry, hfield⟩ := fieldsOf_lists_iff.1 hpath
      rw [(conditions_eq_ok_iff.1 hall).2] at hentry
      obtain ⟨criterion, hordered, rfl⟩ := List.mem_map.1 hentry
      have hcriterion := mem_ordered.1 hordered
      have hkeeps := (mem_keepLast_iff hall).2
        ⟨criterion, hcriterion, counts_of_nodup hnodup criterion hcriterion, rfl⟩
      exact (hmem path).2 ⟨criterion.entry, hkeeps, hfield⟩

/-- A criterion about a field of the account, whose record lacks the field.

**Proof sketch.** The rule with its table is computed, and so is that the paths are plain. The table
lists one object, and it has a record, so the theorem applies. -/
theorem readsBack_toRule_industry :
    let definition : Definition :=
      { name := "Partners"
        combination := .all
        criteria :=
          [{ number := 2, operator := "StartsWith", type := "FieldBased"
             details := { entityType := "Account", entityField := "$Account.Industry"
                          fieldValue := "Tech" } },
           { number := 1, operator := "Equal", type := "Profile"
             details := { profile := "Partner User" } }] }
    let snapshot : Snapshot := { data := .ofList [("Account", ∅)] }
    ∃ defined, definition.toRule = .ok defined ∧
      defined.rule = "Profile == 'Partner User' && Account.Industry =~ 'Tech'" ∧
      ∃ tokens program, tokensOf snapshot .lenient defined.rule = .ok tokens ∧
        Program.ofRule snapshot .lenient defined.rule = .ok program ∧
        ∀ path, .variable (.record path) ∈ tokens.map (·.value) ↔ defined.fields.Lists path := by
  intro definition snapshot
  have hrule : definition.toRule.toOption = some
      ⟨"Partners", "Profile == 'Partner User' && Account.Industry =~ 'Tech'",
        .ofList [("Account", .ofList ["Industry"])]⟩ := by
    unfold definition
    decide +kernel
  have hrecords : ∀ object,
      ((Dict.ofList [("Account", NameSet.ofList ["Industry"])]).get? object).isSome = true →
        (snapshot.record? object).isSome = true := by
    intro object hobject
    have hget : (Dict.ofList [("Account", NameSet.ofList ["Industry"])]).get? object =
        if object = "Account" then some (NameSet.ofList ["Industry"]) else none := Dict.get?_insert
    rw [hget] at hobject
    split_ifs at hobject with hname
    · rw [hname]
      rfl
    · cases hobject
  have hplain : ∀ criterion ∈ definition.criteria, criterion.type = "FieldBased" →
      criterion.path.IsPlain := by
    unfold definition
    decide +kernel
  have hrule := toOption_eq_some_iff.1 hrule
  obtain ⟨-, hread⟩ := readsBack_toRule hrule (by decide) hrecords
  obtain ⟨tokens, program, htokens, hprogram, hlisted, hall⟩ := hread hplain
  exact ⟨_, hrule, rfl, tokens, program, htokens, hprogram,
    fun path => ⟨hlisted path, hall (by decide) path⟩⟩

/-- An object with a point in its name: both it and the object of the same name up to the point have
records, and the rule speaks of the field of the latter, which is not listed.

**Proof sketch.** The rule, its tokens and its outcome are computed. The table has one object, which
is not the one of which the rule speaks. -/
theorem readsBack_toRule_point :
    let definition : Definition :=
      { name := "Owned"
        combination := .all
        criteria :=
          [{ number := 1, operator := "Equal", type := "FieldBased"
             details := { entityType := "Account.Owner", entityField := "Name"
                          fieldValue := "Jones" } }] }
    let snapshot : Snapshot :=
      { data := .ofList [("Account", .ofList [("Owner.Name", .text "Smith")]),
          ("Account.Owner", .ofList [("Name", .text "Jones")])] }
    ∃ defined tokens, definition.toRule = .ok defined ∧
      tokensOf snapshot .lenient defined.rule = .ok tokens ∧
      .variable (.record ⟨"Account", "Owner.Name"⟩) ∈ tokens.map (·.value) ∧
      ¬ defined.fields.Lists ⟨"Account", "Owner.Name"⟩ ∧
      defined.fields.Lists ⟨"Account.Owner", "Name"⟩ ∧
      snapshot.field? ⟨"Account.Owner", "Name"⟩ = some (.text "Jones") ∧
      Engine.outcome {} snapshot defined.rule = .ok false := by
  intro definition snapshot
  have hrule : definition.toRule.toOption = some
      ⟨"Owned", "Account.Owner.Name == 'Jones'",
        .ofList [("Account.Owner", .ofList ["Name"])]⟩ := by
    unfold definition
    decide +kernel
  have htokens : (tokensOf snapshot .lenient "Account.Owner.Name == 'Jones'").toOption = some
      [⟨.variable (.record ⟨"Account", "Owner.Name"⟩), 1⟩, ⟨.operator .equal, 20⟩,
        ⟨.text "Jones", 23⟩] := by
    unfold snapshot
    decide +kernel
  have hother : ¬ FieldTable.Lists (.ofList [("Account.Owner", .ofList ["Name"])])
      ⟨"Account", "Owner.Name"⟩ := by
    rintro ⟨fields, hfields, -⟩
    cases hfields
  refine ⟨_, _, toOption_eq_some_iff.1 hrule, toOption_eq_some_iff.1 htokens,
    List.mem_cons_self .., hother, ⟨_, rfl, NameSet.mem_ofList.2 (List.mem_cons_self ..)⟩, ?_, ?_⟩
  · unfold snapshot
    decide +kernel
  · rw [← toOption_eq_some_iff]
    unfold snapshot
    decide +kernel

end Definition

end Targeting
