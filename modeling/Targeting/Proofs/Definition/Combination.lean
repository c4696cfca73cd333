import Targeting.Proofs.Definition.Numbering

/-!
# Criteria combined by one connective

A definition whose criteria must all hold, or of which any must hold, has as its rule the texts of
their conditions with `&&` or `||` between neighbours. There are no parentheses, but none is needed
where each condition is a single comparison, as comparisons bind more tightly. The rule then comes
to what the criteria that count come to together.

Of several criteria with one number only the last counts. The condition of an earlier one must be
without fault, and its field is listed with the others, but the rule says nothing of it.

## Main definitions

* `Targeting.Combination.connective?` — the operator between the conditions.
* `Targeting.Criterion.truth?` — what a criterion comes to by itself.

## Main results

* `Targeting.Definition.exists_join` — the rule of such a definition is a join of conditions.
* `Targeting.Definition.outcome_join` — what a join of single comparisons comes to.
* `Targeting.Definition.outcome_toRule` — what the rule of such a definition comes to.
-/

set_option autoImplicit false

namespace Targeting

/-- The operator between the conditions of a definition, if it has no formula. -/
def Combination.connective? : Combination → Option Operator
  | all => some .and
  | any => some .or
  | formula => none

/-- What a criterion comes to by itself: the outcome of its condition, if it has one. -/
def Criterion.truth? (engine : Engine) (snapshot : Snapshot) (criterion : Criterion) :
    Option Bool :=
  criterion.condition.toOption.bind fun condition =>
    (engine.outcome snapshot condition.text).toOption

/-! ## Truth values that are connected -/

section Connect

variable {α : Type} {truth : α → Option Bool}

/-- Connected truth values come to one exactly when each of them is there. -/
lemma isSome_foldl_connect (f : Bool → Bool → Bool) (items : List α) (v : Option Bool) :
    (items.foldl (fun v a => v.bind fun l => (truth a).map fun r => f l r) v).isSome = true ↔
      v.isSome = true ∧ ∀ a ∈ items, (truth a).isSome = true := by
  induction items generalizing v with
  | nil => simp
  | cons a items ih =>
    rw [List.foldl_cons, ih, List.forall_mem_cons, ← and_assoc]
    refine and_congr_left fun _ => ?_
    cases v <;> simp

/-- A conjunction is true exactly when all truth values are. -/
lemma foldl_and_eq_true (items : List α) (v : Option Bool) :
    items.foldl (fun v a => v.bind fun l => (truth a).map fun r => l && r) v = some true ↔
      v = some true ∧ ∀ a ∈ items, truth a = some true := by
  induction items generalizing v with
  | nil => simp
  | cons a items ih =>
    rw [List.foldl_cons, ih, List.forall_mem_cons, ← and_assoc]
    refine and_congr_left fun _ => ?_
    cases v <;> cases truth a <;> simp

/-- A disjunction of truth values that are there is true exactly when one of them is. -/
lemma foldl_or_eq_true (items : List α) (v : Option Bool) (hv : v.isSome = true)
    (h : ∀ a ∈ items, (truth a).isSome = true) :
    items.foldl (fun v a => v.bind fun l => (truth a).map fun r => l || r) v = some true ↔
      v = some true ∨ ∃ a ∈ items, truth a = some true := by
  induction items generalizing v with
  | nil => simp
  | cons a items ih =>
    obtain ⟨ha, hitems⟩ := List.forall_mem_cons.1 h
    obtain ⟨l, rfl⟩ := Option.isSome_iff_exists.1 hv
    obtain ⟨r, hr⟩ := Option.isSome_iff_exists.1 ha
    rw [List.foldl_cons, ih _ (by simp [hr]) hitems]
    simp [hr, or_assoc]

end Connect

namespace Definition

variable {definition : Definition} {defined : DefinedRule}

/-! ## Joins -/

/-- The operator between conditions is a connective. -/
lemma exists_connect? {op : Operator} (h : definition.combination.connective? = some op) :
    ∃ f, op.connect? = some f := by
  cases hcase : definition.combination <;> rw [hcase] at h <;> cases h <;> exact ⟨_, rfl⟩

/-- The rule of a definition without a formula joins the conditions that are kept, of which there is
at least one.

**Proof sketch.** By cases on the combination: both connectives join the conditions that are kept.
If none were kept, the rule would be blank, which is refused. -/
lemma exists_join (hrule : definition.toRule = .ok defined)
    (hcombination : definition.combination ≠ .formula) :
    ∃ all op first rest, conditions definition.ordered = .ok all ∧
      definition.combination.connective? = some op ∧ keepLast all = first :: rest ∧
      defined.rule = join op (first :: rest) ∧ defined.fields = fieldsOf all := by
  obtain ⟨all, rule, hall, hcombine, hblank, rfl⟩ := toRule_eq_ok_iff.1 hrule
  have hjoin : ∃ op, definition.combination.connective? = some op ∧
      rule = join op (keepLast all) := by
    unfold combine at hcombine
    cases hcase : definition.combination with
    | all =>
      rw [hcase] at hcombine
      exact ⟨.and, rfl, (Except.ok.inj hcombine).symm⟩
    | any =>
      rw [hcase] at hcombine
      exact ⟨.or, rfl, (Except.ok.inj hcombine).symm⟩
    | formula => exact absurd hcase hcombination
  obtain ⟨op, hop, rfl⟩ := hjoin
  cases hkept : keepLast all with
  | nil =>
    rw [hkept] at hblank
    cases hblank
  | cons first rest =>
    exact ⟨all, op, first, rest, hall, hop, hkept, rfl, rfl⟩

/-- A join of single comparisons spells their lexemes with the operator between neighbours. -/
lemma spells_join (op : Operator) {first : UInt32 × Condition} {rest : List (UInt32 × Condition)}
    (h : ∀ entry ∈ first :: rest, IsComparison entry.2.text) :
    Spells (join op (first :: rest)).toList
      (lexemesIn first.2.text ++
        rest.flatMap fun entry => .operator op :: lexemesIn entry.2.text) :=
  spells_intercalate op first rest fun entry hentry => ((h entry hentry).hasTruth {} {}).1

/-- The lexemes of a join of single comparisons are those of an expression that comes to what the
connective makes of the comparisons. -/
lemma hasTruth_join {op : Operator} {f : Bool → Bool → Bool} (hop : op.connect? = some f)
    {first : UInt32 × Condition} {rest : List (UInt32 × Condition)}
    (h : ∀ entry ∈ first :: rest, IsComparison entry.2.text) (engine : Engine)
    (snapshot : Snapshot) :
    HasTruth (engine.scene snapshot (.root snapshot.audience)) op.precedence
      (lexemesIn first.2.text ++
        rest.flatMap fun entry => .operator op :: lexemesIn entry.2.text)
      (rest.foldl (fun v entry => v.bind fun l =>
          ((engine.outcome snapshot entry.2.text).toOption).map fun r => f l r)
        (engine.outcome snapshot first.2.text).toOption) := by
  have hlevel : op.precedence + 1 ≤ 3 := by
    cases op <;> first | decide | cases hop
  obtain ⟨hfirst, hrest⟩ := List.forall_mem_cons.1 h
  have hbegin := (hfirst.hasTruth engine snapshot).2.mono (Nat.le_of_succ_le hlevel)
  exact hbegin.chain hop fun entry hentry =>
    ((hrest entry hentry).hasTruth engine snapshot).2.mono hlevel

/-- A join of single comparisons comes to what the connective makes of them. -/
theorem outcome_join {op : Operator} {f : Bool → Bool → Bool} (hop : op.connect? = some f)
    {first : UInt32 × Condition} {rest : List (UInt32 × Condition)}
    (h : ∀ entry ∈ first :: rest, IsComparison entry.2.text) (engine : Engine)
    (snapshot : Snapshot) :
    (engine.outcome snapshot (join op (first :: rest))).toOption =
      rest.foldl (fun v entry => v.bind fun l =>
          ((engine.outcome snapshot entry.2.text).toOption).map fun r => f l r)
        (engine.outcome snapshot first.2.text).toOption :=
  engine.outcome_of_hasTruth snapshot (spells_join op h)
    ((hasTruth_join hop h engine snapshot).mono op.one_le_precedence)

/-! ## What the rule comes to -/

/-- A criterion comes to what the condition in its entry does. -/
lemma truth?_eq {criterion : Criterion} {condition : Condition}
    (h : criterion.condition = .ok condition) (engine : Engine) (snapshot : Snapshot) :
    criterion.truth? engine snapshot =
      (engine.outcome snapshot criterion.entry.2.text).toOption := by
  rw [Criterion.truth?, criterion.entry_eq h, h]
  rfl

/-- What is so of all conditions that are kept is so of all criteria that count.

**Proof sketch.** A condition is kept exactly if it is the entry of a criterion that counts, by
`Targeting.Definition.mem_keepLast_iff`, and the criterion is as true as its condition. -/
lemma forall_kept_iff {all : List (UInt32 × Condition)}
    (h : conditions definition.ordered = .ok all) (engine : Engine) (snapshot : Snapshot)
    (P : Option Bool → Prop) :
    (∀ entry ∈ keepLast all, P (engine.outcome snapshot entry.2.text).toOption) ↔
      ∀ criterion ∈ definition.criteria, definition.Counts criterion →
        P (criterion.truth? engine snapshot) := by
  constructor
  · intro hall criterion hmem hcounts
    obtain ⟨condition, hcondition⟩ := exists_condition h hmem
    rw [truth?_eq hcondition]
    exact hall _ ((mem_keepLast_iff h).2 ⟨criterion, hmem, hcounts, rfl⟩)
  · intro hall entry hentry
    obtain ⟨criterion, hmem, hcounts, rfl⟩ := (mem_keepLast_iff h).1 hentry
    obtain ⟨condition, hcondition⟩ := exists_condition h hmem
    rw [← truth?_eq hcondition]
    exact hall criterion hmem hcounts

/-- What is so of one of the conditions that are kept is so of a criterion that counts. -/
lemma exists_kept_iff {all : List (UInt32 × Condition)}
    (h : conditions definition.ordered = .ok all) (engine : Engine) (snapshot : Snapshot)
    (P : Option Bool → Prop) :
    (∃ entry ∈ keepLast all, P (engine.outcome snapshot entry.2.text).toOption) ↔
      ∃ criterion ∈ definition.criteria, definition.Counts criterion ∧
        P (criterion.truth? engine snapshot) := by
  have hforall := forall_kept_iff h engine snapshot fun v => ¬ P v
  rw [← not_iff_not]
  push Not
  exact hforall

/-- The conditions of a definition whose criteria about fields have single comparisons are single
comparisons, as those of all other criteria are. -/
lemma isComparison_of_mem_keepLast {all : List (UInt32 × Condition)}
    (h : conditions definition.ordered = .ok all)
    (hsingle : ∀ criterion ∈ definition.criteria, criterion.type = "FieldBased" →
      ∀ condition, criterion.condition = .ok condition → IsComparison condition.text) :
    ∀ entry ∈ keepLast all, IsComparison entry.2.text := by
  intro entry hentry
  obtain ⟨criterion, hmem, -, rfl⟩ := (mem_keepLast_iff h).1 hentry
  obtain ⟨condition, hcondition⟩ := exists_condition h hmem
  rw [criterion.entry_eq hcondition]
  by_cases htype : criterion.type = "FieldBased"
  · exact hsingle criterion hmem htype condition hcondition
  · exact criterion.isComparison_of_type_ne hcondition htype

/-- **What combined criteria come to.** Where criteria about fields have single comparisons as their
conditions, the rule of a definition without a formula has an outcome exactly when each criterion
that counts has one by itself, and the outcome is that all of them hold, or that any does. A
criterion counts unless a later one has its number; so all count if no two have the same.

**Proof sketch.** The rule joins the conditions of the criteria that count. Their lexemes with the
connective between neighbours are those of a tree that leans to the left, with a comparison in each
of its operands. -/
theorem outcome_toRule (hrule : definition.toRule = .ok defined)
    (hcombination : definition.combination ≠ .formula)
    (hsingle : ∀ criterion ∈ definition.criteria, criterion.type = "FieldBased" →
      ∀ condition, criterion.condition = .ok condition → IsComparison condition.text)
    (engine : Engine) (snapshot : Snapshot) :
    ((engine.outcome snapshot defined.rule).isOk = true ↔
      ∀ criterion ∈ definition.criteria, definition.Counts criterion →
        (criterion.truth? engine snapshot).isSome = true) ∧
    ((engine.outcome snapshot defined.rule).isOk = true →
      (definition.combination = .all → (engine.outcome snapshot defined.rule = .ok true ↔
        ∀ criterion ∈ definition.criteria, definition.Counts criterion →
          criterion.truth? engine snapshot = some true)) ∧
      (definition.combination = .any → (engine.outcome snapshot defined.rule = .ok true ↔
        ∃ criterion ∈ definition.criteria, definition.Counts criterion ∧
          criterion.truth? engine snapshot = some true))) ∧
    ((definition.criteria.map (·.number)).Nodup →
      ∀ criterion ∈ definition.criteria, definition.Counts criterion) := by
  obtain ⟨all, op, first, rest, hall, hop, hkept, hdefined, -⟩ := exists_join hrule hcombination
  have hcomparison := isComparison_of_mem_keepLast hall hsingle
  have hforall := forall_kept_iff hall engine snapshot
  have hexists := exists_kept_iff hall engine snapshot
  rw [hkept] at hcomparison hforall hexists
  -- the outcome of the rule, for either connective
  have houtcome : ∀ {f : Bool → Bool → Bool}, op.connect? = some f →
      (engine.outcome snapshot defined.rule).toOption =
        rest.foldl (fun v entry => v.bind fun l =>
            ((engine.outcome snapshot entry.2.text).toOption).map fun r => f l r)
          (engine.outcome snapshot first.2.text).toOption := by
    intro f hf
    rw [hdefined]
    exact outcome_join hf hcomparison engine snapshot
  have hsome : (engine.outcome snapshot defined.rule).isOk = true ↔
      ∀ entry ∈ first :: rest, (engine.outcome snapshot entry.2.text).toOption.isSome = true := by
    obtain ⟨f, hf⟩ := exists_connect? hop
    rw [← isSome_toOption_iff, houtcome hf, isSome_foldl_connect, List.forall_mem_cons]
  refine ⟨hsome.trans (hforall fun v => v.isSome = true),
    fun hok => ⟨fun hcase => ?_, fun hcase => ?_⟩, counts_of_nodup⟩
  · obtain rfl : .and = op := by rw [hcase] at hop; exact Option.some.inj hop
    rw [← toOption_eq_some_iff, houtcome rfl, foldl_and_eq_true, ← hforall fun v => v = some true,
      List.forall_mem_cons]
  · obtain rfl : .or = op := by rw [hcase] at hop; exact Option.some.inj hop
    obtain ⟨hfirst, hrest⟩ := List.forall_mem_cons.1 (hsome.1 hok)
    rw [← toOption_eq_some_iff, houtcome rfl, foldl_or_eq_true _ _ hfirst hrest,
      ← hexists fun v => v = some true, List.exists_mem_cons_iff]

/-- A criterion about a field and one about the profile, listed against the order of their
numbers.

**Proof sketch.** The rule is computed. The names of the fields are plain words, so all conditions
are comparisons and the theorem applies. -/
theorem outcome_toRule_two :
    let definition : Definition :=
      { name := "Partners"
        combination := .all
        criteria :=
          [{ number := 2, operator := "StartsWith", type := "FieldBased"
             details := { entityType := "Account", entityField := "$Account.Industry"
                          fieldValue := "Tech" } },
           { number := 1, operator := "Equal", type := "Profile"
             details := { profile := "Partner User" } }] }
    ∃ defined, definition.toRule = .ok defined ∧
      defined.rule = "Profile == 'Partner User' && Account.Industry =~ 'Tech'" ∧
      ∀ engine snapshot, (engine.outcome snapshot defined.rule).isOk = true ↔
        ∀ criterion ∈ definition.criteria, definition.Counts criterion →
          (criterion.truth? engine snapshot).isSome = true := by
  intro definition
  have hrule : (definition.toRule.map (·.rule)).toOption =
      some "Profile == 'Partner User' && Account.Industry =~ 'Tech'" := by
    unfold definition
    decide +kernel
  obtain ⟨defined, hrule, hdefined⟩ := map_eq_ok_iff.1 (toOption_eq_some_iff.1 hrule)
  have hword : ∀ criterion ∈ definition.criteria, criterion.type = "FieldBased" →
      IsPlainWord criterion.path.text := by
    unfold definition
    decide +kernel
  refine ⟨defined, hrule, hdefined, fun engine snapshot => ?_⟩
  exact (outcome_toRule hrule (by decide) (fun criterion hmem htype condition hcondition =>
    criterion.isComparison_of_isPlainWord hcondition htype (hword criterion hmem htype)) engine
    snapshot).1

/-- Two criteria with one number, of which the first does not hold: the rule says nothing of it.

**Proof sketch.** The rule, its outcome and what the two criteria come to by themselves are
computed. -/
theorem outcome_toRule_repeated :
    let definition : Definition :=
      { name := "Partners"
        combination := .all
        criteria :=
          [{ number := 1, operator := "Equal", type := "Profile"
             details := { profile := "Partner" } },
           { number := 1, operator := "Equal", type := "Permission"
             details := { permissionName := "orders", permissionType := "Custom" } }] }
    let snapshot : Snapshot := { profile := "Guest", permission := .ofList ["orders"] }
    ∃ defined, definition.toRule = .ok defined ∧
      (∀ criterion ∈ definition.criteria, (criterion.truth? {} snapshot).isSome = true) ∧
      Engine.outcome {} snapshot defined.rule = .ok true ∧
      ¬ ∀ criterion ∈ definition.criteria, criterion.truth? {} snapshot = some true := by
  intro definition snapshot
  have hrule : (definition.toRule.map (·.rule)).toOption = some "Permission == 'orders'" := by
    unfold definition
    decide +kernel
  obtain ⟨defined, hrule, hdefined⟩ := map_eq_ok_iff.1 (toOption_eq_some_iff.1 hrule)
  refine ⟨defined, hrule, ?_, ?_, ?_⟩
  · unfold definition snapshot
    decide +kernel
  · rw [hdefined, ← toOption_eq_some_iff]
    unfold snapshot
    decide +kernel
  · unfold definition snapshot
    decide +kernel

end Definition

end Targeting
