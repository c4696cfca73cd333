import Targeting.Proofs.Definition.Combination
import Targeting.Proofs.Definition.FormulaWords

/-!
# Which rules of definitions are well formed

A condition is put into the rule of its definition as it is, and a formula with nothing but its
numbers and connectives replaced. That the outcome is a rule is not looked at, besides that it is
not blank: what is wrong with a rule is said when it is evaluated. So a rule is well formed if that
of which it is made is. Conditions always are, except those on fields, whose objects and paths may
have any characters. A formula need not be.

## Main definitions

* `Targeting.Definition.Uses` — whether the rule of a definition has the condition of a criterion.

## Main results

* `Targeting.Criterion.isWellFormed_of_type_ne` — the conditions that are always well formed.
* `Targeting.Definition.isWellFormed_join`, `Targeting.Definition.actsAs_formula` — the rule of a
  definition without and with a formula.
* `Targeting.Definition.toRule_isWellFormed` — which rules are well formed.
-/

set_option autoImplicit false

namespace Targeting

/-! ## Conditions -/

/-- A condition whose variable is one word is a well-formed rule. -/
lemma Condition.isWellFormed {condition : Condition} (hliteral : '\\' ∉ condition.literal.toList)
    (hword : IsPlainWord condition.subject.name) : IsWellFormed condition.text :=
  ((spells_iff hliteral).2 hword).isWellFormed_iff.2 rfl

/-- The condition of a criterion that is not about a field is a well-formed rule. -/
theorem Criterion.isWellFormed_of_type_ne {criterion : Criterion} {condition : Condition}
    (h : criterion.condition = .ok condition) (htype : criterion.type ≠ "FieldBased") :
    IsWellFormed condition.text :=
  Condition.isWellFormed (condition_eq_ok_iff.1 h).2.2 (isPlainWord_of_type_ne h htype)

namespace Definition

variable {definition : Definition} {defined : DefinedRule} {all : List (UInt32 × Condition)}

/-- Whether the rule of a definition has the condition of a criterion: the criterion counts, and if
there is a formula, it has the number of the criterion. -/
def Uses (definition : Definition) (criterion : Criterion) : Prop :=
  definition.Counts criterion ∧
    (definition.combination = .formula →
      ∃ digits, .word digits ∈ lexemesIn (definition.formula.getD "") ∧
        Formula.IsNumber digits.toList ∧ Formula.number? digits.toList = some criterion.number)

/-- What is used is well formed if it is where fields are concerned. -/
lemma isWellFormed_of_uses
    (hfields : ∀ criterion ∈ definition.criteria, definition.Uses criterion →
      criterion.type = "FieldBased" →
      ∀ condition, criterion.condition = .ok condition → IsWellFormed condition.text)
    {criterion : Criterion} (hmem : criterion ∈ definition.criteria)
    (huses : definition.Uses criterion) (h : conditions definition.ordered = .ok all) :
    IsWellFormed criterion.entry.2.text := by
  obtain ⟨condition, hcondition⟩ := exists_condition h hmem
  rw [criterion.entry_eq hcondition]
  by_cases htype : criterion.type = "FieldBased"
  · exact hfields criterion hmem huses htype condition hcondition
  · exact criterion.isWellFormed_of_type_ne hcondition htype

/-! ## Joins -/

/-- Well-formed rules with an operator between neighbours are a well-formed rule. -/
theorem isWellFormed_join (op : Operator) {first : UInt32 × Condition}
    {rest : List (UInt32 × Condition)}
    (h : ∀ entry ∈ first :: rest, IsWellFormed entry.2.text) :
    IsWellFormed (join op (first :: rest)) := by
  have hspells : ∀ entry ∈ first :: rest,
      Spells entry.2.text.toList (lexemesIn entry.2.text) ∧
        IsWhole ((lexemesIn entry.2.text).map Lexeme.asToken) := by
    intro entry hentry
    obtain ⟨lexemes, hlexemes, hwhole⟩ := (h entry hentry).exists_spells
    rw [hlexemes.lexemesIn_eq]
    exact ⟨hlexemes, hwhole⟩
  have hjoin := spells_intercalate op first rest fun entry hentry => (hspells entry hentry).1
  obtain ⟨hfirst, hrest⟩ := List.forall_mem_cons.1 hspells
  refine (show Spells (join op (first :: rest)).toList _ from hjoin).isWellFormed_iff.2 ?_
  rw [List.map_append, List.map_flatMap]
  exact hfirst.2.chain op fun entry hentry => (hrest entry hentry).2

/-! ## Formulas -/

/-- The rule of a definition with a formula acts as the tokens of the formula.

**Proof sketch.** The text of a number is that of the last criterion with the number, by
`Targeting.Definition.textOf?_keepLast`. The formula uses this criterion, so the text is well
formed. The rest is `Targeting.Formula.actsAs_expandFrom`. -/
theorem actsAs_formula (hrule : definition.toRule = .ok defined)
    (hcombination : definition.combination = .formula)
    (hfields : ∀ criterion ∈ definition.criteria, definition.Uses criterion →
      criterion.type = "FieldBased" →
      ∀ condition, criterion.condition = .ok condition → IsWellFormed condition.text)
    {lexemes : List Lexeme} (hlexemes : Spells (definition.formula.getD "").toList lexemes)
    (hapart : ∀ lexeme ∈ lexemes, Formula.IsApart lexeme) :
    ActsAs defined.rule.toList (lexemes.map Formula.token) := by
  obtain ⟨all, rule, hall, hcombine, -, rfl⟩ := toRule_eq_ok_iff.1 hrule
  simp only [combine, hcombination] at hcombine
  obtain ⟨chars, hchars, rfl⟩ := map_eq_ok_iff.1 hcombine
  have hcondition : ∀ digits text, .word digits ∈ lexemes → Formula.IsNumber digits.toList →
      (Formula.number? digits.toList).bind (textOf? (keepLast all)) = some text →
      IsWellFormed text := by
    intro digits text hmem hdigits htext
    obtain ⟨number, hnumber, htext⟩ := Option.bind_eq_some_iff.1 htext
    rw [textOf?_keepLast hall] at htext
    obtain ⟨criterion, hlast, rfl⟩ := Option.map_eq_some_iff.1 htext
    obtain ⟨hcriterion, heq⟩ := mem_of_lastNumbered? hlast
    obtain rfl := UInt32.toNat_inj.1 heq
    refine isWellFormed_of_uses hfields hcriterion ⟨hlast, fun _ => ⟨digits, ?_, hdigits, hnumber⟩⟩
      hall
    rwa [hlexemes.lexemesIn_eq]
  obtain ⟨items, hitems, rfl⟩ := hlexemes
  rw [String.toList_ofList]
  exact (Formula.actsAs_expandFrom hitems hcondition hapart hchars).2

/-! ## Rules -/

/-- **Which rules are well formed.** Where the conditions on fields that it has are well formed, the
rule of a definition without a formula is. If the formula of a definition can be cut into lexemes,
none of which has a number or a connective inside that does harm, so can be its rule; and the rule
is well formed exactly when the lexemes of the formula form an expression, in which numbers and
words are operands, and `AND` and `OR` are operators.

**Proof sketch.** A rule without a formula joins well-formed rules by an operator. In a formula a
well-formed rule stands for each number, and so where an operand may. -/
theorem toRule_isWellFormed (hrule : definition.toRule = .ok defined)
    (hfields : ∀ criterion ∈ definition.criteria, definition.Uses criterion →
      criterion.type = "FieldBased" →
      ∀ condition, criterion.condition = .ok condition → IsWellFormed condition.text) :
    (definition.combination ≠ .formula → IsWellFormed defined.rule) ∧
    (definition.combination = .formula →
      ∀ lexemes, lexemesOf (definition.formula.getD "") = .ok lexemes →
        (∀ lexeme ∈ lexemes, Formula.IsApart lexeme.value) →
        (lexemesOf defined.rule).isOk = true ∧
          (IsWellFormed defined.rule ↔
            checkTokens (lexemes.map fun lexeme => ⟨Formula.token lexeme.value, lexeme.column⟩) =
              .ok ())) := by
  constructor
  · intro hcombination
    obtain ⟨all, op, first, rest, hall, -, hkept, hdefined, -⟩ := exists_join hrule hcombination
    rw [hdefined]
    refine isWellFormed_join op fun entry hentry => ?_
    rw [← hkept] at hentry
    obtain ⟨criterion, hmem, hcounts, rfl⟩ := (mem_keepLast_iff hall).1 hentry
    exact isWellFormed_of_uses hfields hmem ⟨hcounts, fun h => absurd h hcombination⟩ hall
  · intro hcombination lexemes hlexemes hapart
    have hacts := actsAs_formula hrule hcombination hfields (spells_iff.2 ⟨lexemes, hlexemes, rfl⟩)
      (List.forall_mem_map.2 hapart)
    constructor
    · obtain ⟨others, hothers, -⟩ := hacts
      obtain ⟨located, hlocated, -⟩ := spells_iff.1 hothers
      rw [hlocated]
      rfl
    · rw [hacts.isWellFormed_iff, checkTokens_eq_ok_iff_isWhole, List.map_map, List.map_map]
      rfl

/-- A formula with a comparison of its own, which has a connective between quotes.

**Proof sketch.** The rule, the conditions and the lexemes of the formula are computed, and so is
that its tokens are accepted. That the rule is well formed then follows from the theorem. -/
theorem toRule_isWellFormed_comparison :
    let definition : Definition :=
      { name := "Partners"
        combination := .formula
        formula := some "(01 AND 2)OR Role == 'CEO OR CFO'"
        criteria :=
          [{ number := 2, operator := "StartsWith", type := "FieldBased"
             details := { entityType := "Account", entityField := "Industry"
                          fieldValue := "Tech" } },
           { number := 1, operator := "Equal", type := "Profile"
             details := { profile := "Partner" } }] }
    ∃ defined, definition.toRule = .ok defined ∧
      defined.rule =
        "(Profile == 'Partner' && Account.Industry =~ 'Tech')|| Role == 'CEO || CFO'" ∧
      IsWellFormed defined.rule := by
  intro definition
  have htext : (definition.toRule.map (·.rule)).toOption =
      some "(Profile == 'Partner' && Account.Industry =~ 'Tech')|| Role == 'CEO || CFO'" := by
    unfold definition
    decide +kernel
  obtain ⟨defined, hrule, htext⟩ := map_eq_ok_iff.1 (toOption_eq_some_iff.1 htext)
  have hcriteria : ∀ criterion ∈ definition.criteria, criterion.type = "FieldBased" →
      (criterion.condition.toOption.all fun condition => IsWellFormed condition.text) = true := by
    unfold definition
    decide +kernel
  have hfields : ∀ criterion ∈ definition.criteria, definition.Uses criterion →
      criterion.type = "FieldBased" →
      ∀ condition, criterion.condition = .ok condition → IsWellFormed condition.text := by
    intro criterion hmem _ htype condition hcondition
    have hwell := hcriteria criterion hmem htype
    rw [hcondition] at hwell
    exact of_decide_eq_true hwell
  have hlexemes : ∃ lexemes, lexemesOf "(01 AND 2)OR Role == 'CEO OR CFO'" = .ok lexemes ∧
      (∀ lexeme ∈ lexemes, Formula.IsApart lexeme.value) ∧
      checkTokens (lexemes.map fun lexeme => ⟨Formula.token lexeme.value, lexeme.column⟩) =
        .ok () :=
    ⟨_, rfl, by decide +kernel, rfl⟩
  obtain ⟨lexemes, hlexemes, hapart, hcheck⟩ := hlexemes
  obtain ⟨-, hformula⟩ := toRule_isWellFormed hrule hfields
  exact ⟨defined, hrule, htext, (hformula rfl lexemes hlexemes hapart).2.2 hcheck⟩

/-- A parenthesis that a formula leaves open remains open in the rule. -/
theorem not_isWellFormed_toRule_opening :
    let definition : Definition :=
      { name := "Partners"
        combination := .formula
        formula := some "(1"
        criteria :=
          [{ number := 1, operator := "Equal", type := "Profile"
             details := { profile := "Partner" } }] }
    ∃ defined, definition.toRule = .ok defined ∧ ¬ IsWellFormed defined.rule := by
  intro definition
  have htext : (definition.toRule.map (·.rule)).toOption = some "(Profile == 'Partner'" := by
    unfold definition
    decide +kernel
  obtain ⟨defined, hrule, htext⟩ := map_eq_ok_iff.1 (toOption_eq_some_iff.1 htext)
  refine ⟨defined, hrule, ?_⟩
  rw [htext]
  decide +kernel

end Definition

end Targeting
