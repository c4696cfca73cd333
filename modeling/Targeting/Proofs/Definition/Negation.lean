import Targeting.Proofs.Definition.Repetition
import Targeting.Proofs.Rule.Division
import Targeting.Proofs.Value.Comparison

/-!
# Inequality as negation

A criterion that says `NotEqual` has the condition of the one that says `Equal`, with another
operator between the same variable and the same text. On values the two operators are opposite:
whatever is compared, and however, one of them holds exactly when the other does not. But a
comparison with the audience attribute is a reference to an audience whichever operator it has, and
the reference comes to what that audience does. So a criterion about an audience says the same with
either operator.

The rule of a definition comes to the opposite along with its only criterion if it has no other
operand beside the condition. A formula that has one, such as `1 OR true`, may come to the same.

## Main definitions

* `Targeting.Definition.withOperator` — a definition with another operator in its criteria.

## Main results

* `Targeting.Condition.exists_subject` — a condition that is a single comparison has its variable as
  one operand, whatever the operator is.
* `Targeting.Condition.outcomeFor_text` — what such a condition comes to.
* `Targeting.Definition.toRule_notEqual` — the rule with inequality in place of equality.
-/

set_option autoImplicit false

namespace Targeting

/-! ## Operators -/

section Operands

variable {op : Operator} {operand : Operand} {text : String}

/-- An operand is compared with a text as it stands. -/
lemma Operand.orient_text (operand : Operand) (text : String) :
    orient operand (.literal (.text text)) = (operand, .literal (.text text)) := by
  unfold orient
  split_ifs with haudience hother
  · rfl
  · rcases hother with heq | hvariable
    · cases heq
    · cases hvariable
  · rfl

/-- Any comparison of the audience attribute with a text refers to the audience of that name. -/
lemma Scene.operate?_audience (scene : Scene) (hop : op.isComparison = true) :
    scene.operate? op .audience (.literal (.text text)) = scene.refer? text := by
  rw [operate?, Operand.orient_text, Operator.reference?, if_pos ⟨hop, rfl⟩]
  rfl

/-- Inequality of anything else with a text is the negation of equality. -/
lemma Scene.operate?_notEqual (scene : Scene) (h : operand ≠ .audience) :
    scene.operate? .notEqual operand (.literal (.text text)) =
      (scene.operate? .equal operand (.literal (.text text))).map (!·) := by
  have hreference : ∀ op : Operator, op.reference? operand (.literal (.text text)) = none :=
    fun op => if_neg fun hboth => h hboth.2
  simp only [operate?, Operand.orient_text, hreference, Operator.result?, Value.compare?_notEqual]
  cases operand.value? <;> rfl

end Operands

/-! ## The operands of a condition -/

namespace Outline

/-- An operand has no operator in it. -/
lemma IsOperand.operator_notMem {o : Outline} (h : o.IsOperand) (op : Operator) :
    .operator op ∉ o.lexemes := by
  induction o with
  | word | quoted => simp [lexemes]
  | group inner ih => simpa [lexemes] using ih h
  | binary => exact absurd h id

/-- An operand in front of an operator and a quoted text is all that stands there.

**Proof sketch.** Both sides end in the same two lexemes. If the front was shorter than the left
operand, or longer, the operator would be one of the lexemes of an operand on the right, or the text
would be in the wrong place. -/
lemma IsOperand.eq_of_lexemes {left right : Outline} (hright : right.IsOperand)
    {op op' : Operator} {text : String} {front : List Lexeme}
    (h : (binary op' left right).lexemes = front ++ [.operator op, .quoted text]) :
    left.lexemes = front := by
  rcases List.append_eq_append_iff.1 h with ⟨between, rfl, hbehind⟩ | ⟨between, hfront, hbehind⟩
  · cases between with
    | nil => simp
    | cons lexeme between =>
      -- the operator of the condition would be in the operand on the right
      obtain ⟨-, hlexemes⟩ := List.cons.inj hbehind
      exact absurd (by simp [hlexemes]) (hright.operator_notMem op)
  · cases between with
    | nil => simpa using hfront
    | cons lexeme between =>
      obtain ⟨-, hquoted⟩ := List.cons.inj hbehind
      cases between with
      | nil => cases hquoted
      | cons => simp at hquoted

/-- An operand with a point in its word or quoted text is not the audience attribute. -/
lemma IsOperand.value?_ne_audience {o : Outline} (h : o.IsOperand) (scene : Scene) {text : String}
    (hmem : .word text ∈ o.lexemes ∨ .quoted text ∈ o.lexemes) (hpoint : '.' ∈ text.toList) :
    o.value? scene ≠ some .audience := by
  induction o with
  | word w =>
    obtain rfl : text = w := by simpa [lexemes] using hmem
    simp only [value?, Token.ofWord, readTruth?_eq_none_of_mem hpoint,
      Attribute.ofName?_eq_none_of_mem hpoint]
    cases FieldPath.ofWord? text with
    | none => simp [Except.toOption]
    | some path =>
      dsimp only
      split_ifs <;> simp [Except.toOption, Token.atom?, Atom.operand, Operand.ofVariable]
  | quoted s => simp [value?]
  | group inner ih => exact ih h (by simpa [lexemes] using hmem)
  | binary => exact absurd h id

/-- An operand that is one word is just this word. -/
lemma IsOperand.eq_word {o : Outline} (h : o.IsOperand) {w : String}
    (hlexemes : o.lexemes = [.word w]) : o = .word w := by
  cases o with
  | word w' => simpa [lexemes] using hlexemes
  | quoted | group => simp [lexemes] at hlexemes
  | binary => exact absurd h id

end Outline

/-- A point in glyphs is one of the characters that they stand for. -/
lemma point_mem_glyphText {glyphs : List Glyph} (h : '.' ∈ glyphSource glyphs) :
    '.' ∈ (glyphText glyphs).toList := by
  obtain ⟨g, hg, hpoint⟩ := List.mem_flatMap.1 h
  rw [glyphText, String.toList_ofList]
  cases g with
  | plain c =>
    obtain rfl := List.mem_singleton.1 hpoint
    exact List.mem_map.2 ⟨_, hg, rfl⟩
  | quote => exact absurd hpoint (by decide)

/-- A point in a text stands in a word or in a quoted text. -/
lemma Spells.exists_mem_of_point {text : List Char} {lexemes : List Lexeme}
    (h : Spells text lexemes) (hpoint : '.' ∈ text) :
    ∃ s, (.word s ∈ lexemes ∨ .quoted s ∈ lexemes) ∧ '.' ∈ s.toList := by
  obtain ⟨items, ⟨hwell, -, rfl⟩, rfl⟩ := h
  obtain ⟨item, hitem, hpoint⟩ := List.mem_flatMap.1 hpoint
  have hmem : ∀ lexeme ∈ item.lexeme?, lexeme ∈ items.filterMap Item.lexeme? :=
    fun lexeme hlexeme => List.mem_filterMap.2 ⟨item, hitem, hlexeme⟩
  cases item with
  | blank c =>
    obtain rfl := List.mem_singleton.1 hpoint
    exact absurd (show isBlankChar '.' = true from hwell _ hitem) (by decide)
  | opening | closing => exact absurd hpoint (by decide)
  | operator op => cases op <;> exact absurd hpoint (by decide)
  | word glyphs => exact ⟨_, .inl (hmem _ rfl), point_mem_glyphText hpoint⟩
  | quoted glyphs =>
    have hinside : '.' ∈ glyphSource glyphs := by simpa [Item.source] using hpoint
    exact ⟨_, .inr (hmem _ rfl), point_mem_glyphText hinside⟩

/-! ## Conditions with either operator -/

namespace Condition

variable {condition : Condition}

/-- **The operand of a condition.** If a condition is a single comparison, then the name of its
variable is read as one operand by itself.

**Proof sketch.** Behind the blank in front of the operator stand two lexemes, whatever is in front
of it; so they are the last two of the comparison. -/
theorem exists_subject (hliteral : '\\' ∉ condition.literal.toList)
    (h : IsComparison condition.text) :
    ∃ subject : Outline, subject.IsOperand ∧
      Spells condition.subject.name.toList subject.lexemes := by
  obtain ⟨op, left, right, -, hleft, hright, hspells⟩ := h
  have hblank : isBlankChar ' ' = true := by decide
  have hsource : condition.text.toList = condition.subject.name.toList ++ ' ' ::
      (condition.op.symbol.toList ++ ' ' :: ((quoteText condition.literal).toList ++ [])) := by
    simp [text]
  have hbehind : Spells
      (condition.op.symbol.toList ++ ' ' :: ((quoteText condition.literal).toList ++ []))
      [.operator condition.op, .quoted condition.literal] :=
    .operator _ (.blank hblank (spells_quoteText hliteral .nil))
  rw [hsource] at hspells
  obtain ⟨front, hfront, hlexemes⟩ := hspells.of_append_blank hblank hbehind
  exact ⟨left, hleft, (hright.eq_of_lexemes hlexemes) ▸ hfront⟩

/-- What a condition spells whose variable is read as one operand. -/
lemma spells_text (hliteral : '\\' ∉ condition.literal.toList) {subject : Outline}
    (h : Spells condition.subject.name.toList subject.lexemes) :
    Spells condition.text.toList
      (Outline.binary condition.op subject (.quoted condition.literal)).lexemes := by
  have hjoined := h.joined condition.op (spells_quoteText hliteral .nil)
  simpa [text, Outline.lexemes] using hjoined

/-- **What a condition comes to.** A condition whose variable is read as one operand comes to what
its operator makes of this operand and the literal.

**Proof sketch.** The text spells the lexemes of an operator between two operands. What such an
outline comes to is what the operator makes of the operands, as a truth value, by
`Targeting.Engine.outcomeFor_of_hasTruth`. -/
theorem outcomeFor_text (hliteral : '\\' ∉ condition.literal.toList) {subject : Outline}
    (hsubject : subject.IsOperand) (h : Spells condition.subject.name.toList subject.lexemes)
    (engine : Engine) (snapshot : Snapshot) (audience : String) :
    (engine.outcomeFor snapshot audience condition.text).toOption =
      (subject.value? (engine.scene snapshot (.root audience))).bind fun operand =>
        (engine.scene snapshot (.root audience)).operate? condition.op operand
          (.literal (.text condition.literal)) := by
  let outline : Outline := .binary condition.op subject (.quoted condition.literal)
  have hfits : outline.FitsAt 1 :=
    ⟨condition.op.one_le_precedence, hsubject.fitsAt _, trivial⟩
  rw [engine.outcomeFor_of_hasTruth snapshot audience (spells_text hliteral h)
    ⟨outline, hfits, rfl, rfl⟩]
  generalize engine.scene snapshot (.root audience) = scene
  change ((subject.value? scene).bind fun operand => (scene.operate? condition.op operand
    (.literal (.text condition.literal))).bind fun result => some _).bind Operand.truth? = _
  cases subject.value? scene with
  | none => rfl
  | some operand =>
    dsimp only [Option.bind_some]
    cases scene.operate? condition.op operand (.literal (.text condition.literal)) <;> rfl

end Condition

/-- An operand that is read from the name of a variable is the audience attribute exactly when the
variable is. -/
lemma Variable.value?_eq_audience_iff {v : Variable} {subject : Outline}
    (hsubject : subject.IsOperand) (h : Spells v.name.toList subject.lexemes) (scene : Scene) :
    subject.value? scene = some .audience ↔ v = .named .audience := by
  cases v with
  | named a =>
    have hends : EndsWord [] := trivial
    have hword : Spells (a.name.toList ++ []) [.word a.name] :=
      (spells_word_iff hends).2 ⟨a.isPlainWord_name, .nil⟩
    rw [List.append_nil] at hword
    obtain rfl := hsubject.eq_word (h.unique hword)
    rw [Outline.value?, Token.ofWord_name]
    cases a <;> simp [Except.toOption, Token.atom?, Atom.operand, Operand.ofVariable]
  | record path =>
    have hpoint : '.' ∈ path.text.toList := by simp [FieldPath.text]
    obtain ⟨text, hmem, htext⟩ := h.exists_mem_of_point hpoint
    exact iff_of_false (hsubject.value?_ne_audience scene hmem htext) (by simp)

/-- **Conditions with inequality.** A condition that is a single comparison by equality is one by
inequality, too, and comes to the opposite, unless its variable is the audience attribute; then it
comes to the same.

**Proof sketch.** Both texts have the same operand in front of their operators, so both come to what
their operators make of it and the literal. If it is the audience attribute, both follow the
reference; otherwise the one is the negation of the other, by `Targeting.Value.compare?_notEqual`.
-/
theorem Condition.outcomeFor_notEqual {v : Variable} {literal : String}
    (hliteral : '\\' ∉ literal.toList) (h : IsComparison (Condition.mk v .equal literal).text) :
    IsComparison (Condition.mk v .notEqual literal).text ∧
      ∀ (engine : Engine) (snapshot : Snapshot) (audience : String),
        (engine.outcomeFor snapshot audience (Condition.mk v .notEqual literal).text).toOption =
          (engine.outcomeFor snapshot audience (Condition.mk v .equal literal).text).toOption.map
            fun b => if v = .named .audience then b else !b := by
  obtain ⟨subject, hsubject, hname⟩ := exists_subject hliteral h
  have hspells := @spells_text ⟨v, .notEqual, literal⟩ hliteral _ hname
  refine ⟨⟨.notEqual, subject, .quoted literal, rfl, hsubject, trivial, hspells⟩,
    fun engine snapshot audience => ?_⟩
  have houtcome := fun op => @outcomeFor_text ⟨v, op, literal⟩ hliteral _ hsubject hname engine
    snapshot audience
  have haudience := v.value?_eq_audience_iff hsubject hname (engine.scene snapshot (.root audience))
  rw [houtcome, houtcome]
  cases hoperand : subject.value? (engine.scene snapshot (.root audience)) with
  | none => rfl
  | some operand =>
    rw [Option.bind_some, Option.bind_some]
    by_cases hv : v = .named .audience
    · obtain rfl := Option.some.inj (hoperand.symm.trans (haudience.2 hv))
      simp only [if_pos hv, Option.map_id']
      rw [Scene.operate?_audience _ rfl, Scene.operate?_audience _ rfl]
    · have hne : operand ≠ .audience := by
        rintro rfl
        exact hv (haudience.1 hoperand)
      simp only [if_neg hv]
      exact Scene.operate?_notEqual _ hne

/-- A criterion compares the audience attribute exactly when it is about an audience. -/
lemma Criterion.subject_eq_audience_iff {criterion : Criterion} {condition : Condition}
    (h : criterion.condition = .ok condition) :
    condition.subject = .named .audience ↔ criterion.type = "Audience" := by
  have hterms := (condition_eq_ok_iff.1 h).2.1
  unfold terms at hterms
  split at hterms
  · next htype => simp [htype, ← (Prod.mk.inj (Except.ok.inj hterms)).1]
  · next htype =>
    dsimp only at hterms
    split_ifs at hterms
    simp [htype, ← (Prod.mk.inj (Except.ok.inj hterms)).1]
  · next htype =>
    dsimp only at hterms
    split_ifs at hterms
    simp [htype, ← (Prod.mk.inj (Except.ok.inj hterms)).1]
  · next htype => simp [htype, ← (Prod.mk.inj (Except.ok.inj hterms)).1]
  · cases hterms

/-! ## Definitions with either operator -/

namespace Definition

/-- The definition with another operator in each of its criteria. -/
def withOperator (definition : Definition) (name : String) : Definition :=
  { definition with
    criteria := definition.criteria.map fun criterion => { criterion with operator := name } }

/-- **Inequality as negation.** Take a definition with one criterion, which says `Equal`, whose
condition is a single comparison, and whose formula, if it has one, has nothing besides numbers,
connectives, parentheses and blanks. If its rule comes to a truth value, then with `NotEqual` in
place of `Equal` the definition has a rule, too, which comes to the opposite, unless the criterion
is about an audience; then it comes to the same.

**Proof sketch.** Both rules come to what their conditions do, and these have the same operands. The
literal is a text, so it is the operators that differ in what they make of the operands, and they
differ unless the operand is the audience attribute. -/
theorem toRule_notEqual {definition : Definition} {criterion : Criterion} {defined : DefinedRule}
    (hcriteria : definition.criteria = [criterion]) (hoperator : criterion.operator = "Equal")
    (hsingle : ∀ condition, criterion.condition = .ok condition → IsComparison condition.text)
    (hformula : definition.combination = .formula →
      Formula.OnlyConnects (definition.formula.getD ""))
    (hrule : definition.toRule = .ok defined) {engine : Engine} {snapshot : Snapshot}
    {audience : String} {b : Bool}
    (h : engine.outcomeFor snapshot audience defined.rule = .ok b) :
    ∃ other, (definition.withOperator "NotEqual").toRule = .ok other ∧
      engine.outcomeFor snapshot audience other.rule =
        .ok (if criterion.type = "Audience" then b else !b) := by
  obtain ⟨all, -, hall, -⟩ := toRule_eq_ok_iff.1 hrule
  obtain ⟨condition, hcondition⟩ := exists_condition hall (hcriteria ▸ List.mem_singleton_self _)
  have hcomparison := hsingle condition hcondition
  have hrepeats := onlyRepeats_of_outcomeFor hcriteria hcondition hcomparison hformula hrule h
  obtain ⟨hop, hterms, hliteral⟩ := Criterion.condition_eq_ok_iff.1 hcondition
  obtain ⟨v, op, literal⟩ := condition
  obtain rfl : Operator.equal = op := by
    rw [hoperator] at hop
    exact Option.some.inj hop
  obtain ⟨hcomparison', hopposite⟩ := Condition.outcomeFor_notEqual hliteral hcomparison
  -- the criterion with inequality
  let criterion' : Criterion := { criterion with operator := "NotEqual" }
  have hcriteria' : (definition.withOperator "NotEqual").criteria = [criterion'] := by
    simp [withOperator, hcriteria, criterion']
  have hcondition' : criterion'.condition = .ok ⟨v, .notEqual, literal⟩ :=
    Criterion.condition_eq_ok_iff.2 ⟨rfl, hterms, hliteral⟩
  have hnumber : criterion'.number = criterion.number := rfl
  obtain ⟨other, hother⟩ :=
    exists_toRule_of_toRule hcriteria hcondition hrepeats hrule hnumber hcondition' hcomparison'
  have hwith : (definition.withOperator "NotEqual").toRule = .ok other := by
    simpa [withOperator, hcriteria, criterion'] using hother
  refine ⟨other, hwith, ?_⟩
  -- both rules come to what their conditions do
  rw [← toOption_eq_some_iff,
    outcomeFor_repeated hcriteria hcondition hrepeats hcomparison hrule] at h
  rw [← toOption_eq_some_iff,
    outcomeFor_repeated hcriteria' hcondition' hrepeats hcomparison' hwith, hopposite, h]
  exact congrArg some (if_congr (Criterion.subject_eq_audience_iff hcondition) rfl rfl)

/-- A field that the record lacks, named in a formula twice.

**Proof sketch.** The rule and its outcome are computed. The formula has only numbers, a connective
and parentheses, and the path is a plain word, so the theorem applies. -/
theorem toRule_notEqual_missing :
    let criterion : Criterion :=
      { number := 1, operator := "Equal", type := "FieldBased"
        details := { entityType := "Account", entityField := "Industry", fieldValue := "Tech" } }
    let definition : Definition :=
      { name := "Makers", combination := .formula, formula := some "(1 AND 01)||1"
        criteria := [criterion] }
    let snapshot : Snapshot := { data := .ofList [("Account", ∅)] }
    ∃ defined other, definition.toRule = .ok defined ∧
      Engine.outcomeFor {} snapshot "Makers" defined.rule = .ok false ∧
      (definition.withOperator "NotEqual").toRule = .ok other ∧
      Engine.outcomeFor {} snapshot "Makers" other.rule = .ok true := by
  intro criterion definition snapshot
  have hrules : ∃ defined ∈ definition.toRule.toOption,
      (Engine.outcomeFor {} snapshot "Makers" defined.rule).toOption = some false := by
    unfold definition criterion snapshot
    decide +kernel
  obtain ⟨defined, hrule, houtcome⟩ := hrules
  have hrule := toOption_eq_some_iff.1 hrule
  have houtcome := toOption_eq_some_iff.1 houtcome
  have hword : IsPlainWord criterion.path.text := by
    unfold criterion
    decide +kernel
  have hformula : Formula.OnlyConnects "(1 AND 01)||1" := by
    refine ⟨[.opening, .word "1", .word "AND", .word "01", .closing, .operator .or, .word "1"],
      spells_iff.2 ⟨_, rfl, rfl⟩, ?_⟩
    decide +kernel
  have hcriteria : definition.criteria = [criterion] := rfl
  obtain ⟨other, hother, hopposite⟩ := toRule_notEqual hcriteria rfl
    (fun condition hcondition => criterion.isComparison_of_isPlainWord hcondition rfl hword)
    (fun _ => hformula) hrule houtcome
  exact ⟨defined, other, hrule, houtcome, hother, hopposite⟩

/-- Two definitions whose rules come to the same with either operator: one is about an audience, the
other has a formula with an operand of its own.

**Proof sketch.** The conditions, the rules and their outcomes are computed for both definitions. No
criterion is about a field, so the conditions are comparisons. -/
theorem toRule_notEqual_same :
    let snapshot : Snapshot := { rules := .ofList [("B", "'x' == 'x'")] }
    let members : Definition :=
      { name := "Members", combination := .all
        criteria :=
          [{ number := 1, operator := "Equal", type := "Audience"
             details := { audienceDeveloperName := "B" } }] }
    let everyone : Definition :=
      { name := "Everyone", combination := .formula, formula := some "1 OR true"
        criteria :=
          [{ number := 1, operator := "Equal", type := "Profile"
             details := { profile := "Guest" } }] }
    ∀ definition ∈ [members, everyone],
      (∀ criterion ∈ definition.criteria,
        ∃ condition, criterion.condition = .ok condition ∧ IsComparison condition.text) ∧
      ∃ defined other, definition.toRule = .ok defined ∧
        (definition.withOperator "NotEqual").toRule = .ok other ∧
        Engine.outcome {} snapshot defined.rule = .ok true ∧
        Engine.outcome {} snapshot other.rule = .ok true := by
  intro snapshot members everyone definition hmem
  have hcriteria : ∀ criterion ∈ definition.criteria,
      criterion.condition.isOk = true ∧ criterion.type ≠ "FieldBased" := by
    revert definition
    unfold members everyone
    decide +kernel
  have hrules : ∃ rule ∈ definition.toRule.toOption,
      ∃ other ∈ (definition.withOperator "NotEqual").toRule.toOption,
        (Engine.outcome {} snapshot rule.rule).toOption = some true ∧
        (Engine.outcome {} snapshot other.rule).toOption = some true := by
    revert definition
    unfold members everyone snapshot
    decide +kernel
  obtain ⟨defined, hrule, other, hother, houtcome, hsame⟩ := hrules
  refine ⟨fun criterion hcriterion => ?_, defined, other, toOption_eq_some_iff.1 hrule,
    toOption_eq_some_iff.1 hother, toOption_eq_some_iff.1 houtcome, toOption_eq_some_iff.1 hsame⟩
  obtain ⟨hok, htype⟩ := hcriteria criterion hcriterion
  obtain ⟨condition, hcondition⟩ := Option.isSome_iff_exists.1 (isSome_toOption_iff.2 hok)
  have hcondition := toOption_eq_some_iff.1 hcondition
  exact ⟨condition, hcondition, criterion.isComparison_of_type_ne hcondition htype⟩

end Definition

end Targeting
