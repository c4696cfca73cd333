import Targeting.Proofs.Evaluation.ReferenceGraph
import Targeting.Proofs.Evaluation.VariablePairs

/-!
# Literals stay between their quotes

A criterion brings a text of its author's into a rule, where quotes, parentheses and operators have
a meaning. The text is written between quotes, with a backslash in front of every quote in it. A
backslash of its own could not be told from one of these, and so no text with a backslash has a
condition. All others are read again as they were, whatever is in them.

The word in front of the operator has no quotes around it. Those of the attributes are fixed; the
path of a field must not have a character in it that means something in a rule.

## Main definitions

* `Targeting.Criterion.Writes` — the variable and the text that a criterion writes into a rule.

## Main results

* `Targeting.Condition.lexemesOf_text` — the lexemes of a condition, with their columns.
* `Targeting.Engine.outcome_of_word_and_text` — what a word that is compared with a text comes to.
* `Targeting.Criterion.condition_keeps_literal` — which criteria have a condition, and that it
  compares with their own text.
-/

set_option autoImplicit false

namespace Targeting

/-! ## What criteria write -/

/-- What a criterion writes into a rule: the variable in front of the operator, and the text behind
it, of which nothing is asked. An object and a field stand in the rule as they are, so none of their
characters may be a blank, a quote, a backslash, a parenthesis or one of an operator. -/
inductive Criterion.Writes (criterion : Criterion) : Variable → String → Prop
  | audience (htype : criterion.type = "Audience") :
      Writes criterion (.named .audience) criterion.details.audienceDeveloperName
  | permission (htype : criterion.type = "Permission")
      (hcustom : criterion.details.permissionType = "Custom") :
      Writes criterion (.named .permission) criterion.details.permissionName
  | profile (htype : criterion.type = "Profile") :
      Writes criterion (.named .profile) criterion.details.profile
  | field (htype : criterion.type = "FieldBased") (hobject : criterion.path.object ≠ "")
      (hfield : criterion.path.field ≠ "")
      (hplain : ∀ c ∈ criterion.path.object.toList ++ criterion.path.field.toList,
        (Glyph.plain c).InWord) :
      Writes criterion (.record criterion.path) criterion.details.fieldValue

namespace Criterion.Writes

variable {criterion : Criterion} {subject : Variable} {literal : String}

/-- What a criterion writes are its terms. -/
lemma terms_eq (h : criterion.Writes subject literal) :
    criterion.terms = .ok (subject, literal) := by
  cases h with
  | audience htype => simp only [terms, htype]
  | permission htype hcustom => simp only [terms, htype, if_pos hcustom]
  | profile htype => simp only [terms, htype]
  | field htype hobject hfield _ =>
    have hempty : ¬ (criterion.path.object.isEmpty || criterion.path.field.isEmpty) = true := by
      simp [hobject, hfield]
    simp only [terms, htype]
    exact if_neg hempty

/-- The variable that a criterion writes is one word. -/
lemma isPlainWord_name (h : criterion.Writes subject literal) : IsPlainWord subject.name := by
  cases h with
  | audience => exact Attribute.audience.isPlainWord_name
  | permission => exact Attribute.permission.isPlainWord_name
  | profile => exact Attribute.profile.isPlainWord_name
  | field _ _ _ hplain =>
    refine ⟨by simp [Variable.name, FieldPath.text], fun c hc => ?_⟩
    have hchar : c ∈ criterion.path.object.toList ++ criterion.path.field.toList ∨ c = '.' := by
      simp only [Variable.name, FieldPath.text, String.toList_append, List.mem_append] at hc ⊢
      rcases hc with (hobject | hpoint) | hfield
      · exact .inl (.inl hobject)
      · exact .inr (by simpa using hpoint)
      · exact .inl (.inr hfield)
    rcases hchar with hmem | rfl
    · exact hplain c hmem
    · decide

end Criterion.Writes

/-! ## Conditions as text -/

/-- The lexemes of a condition whose variable is one word.

**Proof sketch.** The text is decomposed into a word, an operator and a quoted text with blanks
between them, since the name is a plain word and the literal has no backslash. The columns of these
items are found by adding up the lengths before them. -/
theorem Condition.lexemesOf_text (condition : Condition)
    (hword : IsPlainWord condition.subject.name) (hliteral : '\\' ∉ condition.literal.toList) :
    lexemesOf condition.text = .ok
      [⟨.word condition.subject.name, 1⟩,
        ⟨.operator condition.op, condition.subject.name.length + 2⟩,
        ⟨.quoted condition.literal, condition.subject.name.length + 5⟩] := by
  have hblank : isBlankChar ' ' = true := by decide
  let items : List Item :=
    [.word (condition.subject.name.toList.map .plain), .blank ' ', .operator condition.op,
      .blank ' ', .quoted (condition.literal.toList.map Glyph.ofChar)]
  have hitems : Decomposes items condition.text.toList := by
    refine ⟨?_, by simp [items, Item.MayPrecede], ?_⟩
    · simp only [items, List.forall_mem_cons]
      exact ⟨hword.wellFormed, hblank, trivial, hblank, wellFormed_quoted_ofChar hliteral, by simp⟩
    · simp [items, text, Item.source, Operator.symbol, toList_quoteText, glyphSource_map_plain]
  refine lexemesOf_eq_ok_iff.2 ⟨items, hitems, ?_⟩
  -- a word without quotes has the column of its first character
  have hplace : ∀ column,
      (Item.word (condition.subject.name.toList.map .plain)).place column = column := by
    intro column
    cases condition.subject.name.toList <;> rfl
  have hoperator : condition.subject.name.length + 2 =
      (Item.operator condition.op).place (1 + condition.subject.name.toList.length + 1) := by
    change _ = 1 + condition.subject.name.toList.length + 1
    rw [String.length_toList]
    omega
  have hquoted : condition.subject.name.length + 5 =
      (Item.quoted (condition.literal.toList.map Glyph.ofChar)).place
        (1 + condition.subject.name.toList.length + 1 + 2 + 1) := by
    change _ = 1 + condition.subject.name.toList.length + 1 + 2 + 1
    rw [String.length_toList]
    omega
  simpa [items, Item.locate, Item.located, Item.lexeme?, Item.source, hplace, glyphText_map_plain,
    glyphText_map_ofChar, glyphSource_map_plain] using ⟨hoperator, hquoted⟩

/-! ## A word and a text -/

/-- What names something like a variable does is a variable of that name. It is the same one unless
it is about a field: the path of a word has its first point behind the object.

**Proof sketch.** An attribute is named by a word without a point and is read as it is. The path of
a field has a point, so it is neither a truth value nor an attribute; if it is read at all, it is as
a field whose path has the same text. -/
lemma Token.exists_variable_of_ofWord_name {snapshot : Snapshot} {policy : FieldPolicy}
    {subject : Variable} {token : Token} (h : ofWord snapshot policy subject.name = .ok token) :
    ∃ v : Variable, token = .variable v ∧ v.name = subject.name ∧
      ∀ a, v = .named a ↔ subject = .named a := by
  cases subject with
  | named a =>
    rw [show (Variable.named a).name = a.name from rfl, ofWord_name] at h
    exact ⟨.named a, (Except.ok.inj h).symm, rfl, fun _ => Iff.rfl⟩
  | record path =>
    have hpoint : '.' ∈ path.text.toList := by simp [FieldPath.text]
    simp only [Variable.name, ofWord, readTruth?_eq_none_of_mem hpoint,
      Attribute.ofName?_eq_none_of_mem hpoint] at h
    cases hpath : FieldPath.ofWord? path.text with
    | none =>
      rw [hpath] at h
      cases h
    | some other =>
      simp only [hpath] at h
      split_ifs at h
      exact ⟨.record other, (Except.ok.inj h).symm, FieldPath.text_of_ofWord? hpath, by simp⟩

/-- A reference to the audience that a text names comes to what this audience does. -/
lemma Surroundings.operate_audience (around : Surroundings) {op : Operator}
    (hop : op.isComparison = true) (name : String) (column : Nat) :
    (around.operate op .audience (.literal (.text name)) column).map (·.1) =
      (around.refer name column).map (·.1) := by
  have hreference : op.reference? .audience (.literal (.text name)) = some name :=
    (Operator.reference?_audience hop _ name).2 rfl
  simp only [operate, Operand.orient_text, combine?_eq, hreference]
  cases around.refer name column <;> rfl

section WordAndText

variable {snapshot : Snapshot} {rule word s : String} {op : Operator} {i column j : Nat}

/-- The program of a rule that is a word, an operator and a text. -/
lemma Program.code_of_word_and_text {policy : FieldPolicy} {program : Program}
    (hrule : lexemesOf rule = .ok [⟨.word word, i⟩, ⟨.operator op, column⟩, ⟨.quoted s, j⟩])
    (h : ofRule snapshot policy rule = .ok program) :
    ∃ token, Token.ofWord snapshot policy word = .ok token ∧
      program.code = [⟨token, i⟩, ⟨.text s, j⟩, ⟨.operator op, column⟩] := by
  obtain ⟨tokens, htokens, hchecked⟩ := bind_eq_ok_iff.1 h
  obtain ⟨-, -, hprogram⟩ := bind_eq_ok_iff.1 hchecked
  obtain rfl := Except.ok.inj hprogram
  simp only [tokensOf, hrule, bind, Except.bind, Token.ofLexemes, Token.ofLexeme] at htokens
  cases htoken : Token.ofWord snapshot policy word with
  | error fault =>
    rw [htoken] at htokens
    cases htokens
  | ok token =>
    rw [htoken] at htokens
    obtain rfl := Except.ok.inj htokens
    refine ⟨token, rfl, ?_⟩
    obtain ⟨a, rfl⟩ := Token.exists_atom_of_ofWord htoken
    cases a <;> rfl

/-- **A word and a text.** A rule that compares a variable with a text comes to what the comparison
of its value with this very text does; with the audience attribute, to what the audience of this
name does.

**Proof sketch.** The outcome is what the operator makes of the operands of the variable and the
text, by `Targeting.Engine.outcome_of_lexemes`. On the audience attribute it follows the reference.
Any other value is the first operand, and the comparison applies to it. -/
theorem Engine.outcome_of_word_and_text (engine : Engine) (hop : op.isComparison = true)
    (hrule : lexemesOf rule = .ok [⟨.word word, i⟩, ⟨.operator op, column⟩, ⟨.quoted s, j⟩])
    {v : Variable} (hword : Token.ofWord snapshot engine.policy word = .ok (.variable v)) :
    (v = .named .audience → engine.outcome snapshot rule =
      (engine.refer snapshot false (.root snapshot.audience) s column).map (·.1)) ∧
    ∀ value, (Operand.ofVariable snapshot v).value? = some value →
      ∃ result, Value.compare? op value (.text s) = some result ∧
        engine.outcome snapshot rule = .ok result := by
  have houtcome := engine.outcome_of_lexemes snapshot (l := .variable v) (r := .text s) hrule
    hword rfl
  simp only [Atom.operand] at houtcome
  rw [houtcome]
  constructor
  · rintro rfl
    rw [refer_eq_follow]
    exact Surroundings.operate_audience _ hop s column
  · intro value hvalue
    obtain ⟨result, hresult⟩ := Option.isSome_iff_exists.1 (Value.isSome_compare?_text hop value s)
    refine ⟨result, hresult, ?_⟩
    have horient := Operand.orient_text (Operand.ofVariable snapshot v) s
    rw [Surroundings.operate_of_compare? _ hop horient hvalue rfl column, hresult]

end WordAndText

/-! ## Conditions of criteria -/

namespace Criterion

variable {criterion : Criterion} {subject : Variable} {literal : String}

/-- The condition of a criterion is made up of its operator and of what it writes. There is one
exactly when the text has no backslash. -/
lemma condition_eq_ok_iff_of_writes {op : Operator} (hop : comparison? criterion.operator = some op)
    (h : criterion.Writes subject literal) (condition : Condition) :
    criterion.condition = .ok condition ↔
      condition = ⟨subject, op, literal⟩ ∧ '\\' ∉ literal.toList := by
  rw [condition_eq_ok_iff, hop, h.terms_eq]
  constructor
  · rintro ⟨hop, hterms, hbackslash⟩
    obtain rfl := Option.some.inj hop
    obtain ⟨rfl, rfl⟩ := Prod.mk.inj (Except.ok.inj hterms)
    exact ⟨rfl, hbackslash⟩
  · rintro ⟨rfl, hbackslash⟩
    exact ⟨rfl, rfl, hbackslash⟩

/-- A variable of the name that a criterion writes has a value, unless it stands for audiences. -/
lemma Writes.exists_value (h : criterion.Writes subject literal) (snapshot : Snapshot)
    {v : Variable} (hv : ∀ a, v = .named a ↔ subject = .named a)
    (hsubject : subject ≠ .named .audience) :
    ∃ value, (Operand.ofVariable snapshot v).value? = some value := by
  cases h with
  | audience => exact absurd rfl hsubject
  | permission =>
    obtain rfl := (hv .permission).2 rfl
    exact ⟨_, rfl⟩
  | profile =>
    obtain rfl := (hv .profile).2 rfl
    exact ⟨_, rfl⟩
  | field =>
    cases v with
    | named a => cases (hv a).1 rfl
    | record path => exact ⟨_, rfl⟩

/-- **Literals stay between their quotes.** Take a criterion with a known operator that writes a
variable and a text into its rule. It has a condition exactly when there is no backslash in the
text. The lexemes of the condition are the name of the variable, the operator and this very text
between quotes, whatever is in it. So wherever the condition has a program, the program compares a
variable of that name with the text: a criterion about an audience refers to the audience with the
text as its name, and any other comes to what its operator says of the variable's value and the
text.

**Proof sketch.** The glyphs between the quotes are those of the text, one for each character, so
the text ends at the last quote only. -/
theorem condition_keeps_literal {op : Operator} (hop : comparison? criterion.operator = some op)
    (h : criterion.Writes subject literal) :
    ((∃ condition, criterion.condition = .ok condition) ↔ '\\' ∉ literal.toList) ∧
    ∀ condition, criterion.condition = .ok condition →
      lexemesOf condition.text = .ok
        [⟨.word subject.name, 1⟩, ⟨.operator op, subject.name.length + 2⟩,
          ⟨.quoted literal, subject.name.length + 5⟩] ∧
      ∀ (engine : Engine) (snapshot : Snapshot) (program : Program),
        Program.ofRule snapshot engine.policy condition.text = .ok program →
        ∃ v : Variable, v.name = subject.name ∧
          program.code.map (·.value) = [.variable v, .text literal, .operator op] ∧
          (subject = .named .audience → engine.outcome snapshot condition.text =
            (engine.refer snapshot false (.root snapshot.audience) literal
              (subject.name.length + 2)).map (·.1)) ∧
          (subject ≠ .named .audience → ∃ value result,
            (Operand.ofVariable snapshot v).value? = some value ∧
            Value.compare? op value (.text literal) = some result ∧
            engine.outcome snapshot condition.text = .ok result) := by
  have hcondition := condition_eq_ok_iff_of_writes hop h
  refine ⟨⟨?_, fun hbackslash => ⟨_, (hcondition _).2 ⟨rfl, hbackslash⟩⟩⟩, ?_⟩
  · rintro ⟨condition, hok⟩
    exact ((hcondition condition).1 hok).2
  intro condition hok
  obtain ⟨rfl, hbackslash⟩ := (hcondition condition).1 hok
  have hlexemes := Condition.lexemesOf_text ⟨subject, op, literal⟩ h.isPlainWord_name hbackslash
  refine ⟨hlexemes, fun engine snapshot program hprogram => ?_⟩
  obtain ⟨token, htoken, hcode⟩ := Program.code_of_word_and_text hlexemes hprogram
  obtain ⟨v, rfl, hname, hnamed⟩ := Token.exists_variable_of_ofWord_name htoken
  obtain ⟨haudience, hvalue⟩ :=
    engine.outcome_of_word_and_text (isComparison_of_comparison? hop) hlexemes htoken
  refine ⟨v, hname, by rw [hcode]; rfl, fun hsubject => haudience ((hnamed _).2 hsubject), ?_⟩
  intro hsubject
  obtain ⟨value, hsome⟩ := h.exists_value snapshot hnamed hsubject
  obtain ⟨result, hresult, houtcome⟩ := hvalue value hsome
  exact ⟨value, result, hsome, hresult, houtcome⟩

/-- A last name that any visitor would have, if one of its quotes ended the text.

**Proof sketch.** The path of the criterion, the operator and the condition are found by
computation, and so is that the path is one plain word. The lexemes and the code of the program are
those of the theorem. The two outcomes are computed. -/
theorem condition_keeps_literal_name :
    let literal := "O'Brien' || 'a' == 'a"
    let criterion : Criterion :=
      { number := 1, operator := "Equal", type := "FieldBased",
        details := { entityType := "Account", entityField := "$Owner.LastName",
                     fieldValue := literal } }
    let account (name : String) : Snapshot :=
      { data := .ofList [("Account", .ofList [("Owner.LastName", .text name)])] }
    comparison? criterion.operator = some .equal ∧
      criterion.Writes (.record criterion.path) literal ∧
      ∃ condition program v, criterion.condition = .ok condition ∧
        lexemesOf condition.text = .ok
          [⟨.word criterion.path.text, 1⟩, ⟨.operator .equal, 24⟩, ⟨.quoted literal, 27⟩] ∧
        Program.ofRule (account literal) .lenient condition.text = .ok program ∧
        program.code.map (·.value) = [.variable v, .text literal, .operator .equal] ∧
        Engine.outcome {} (account literal) condition.text = .ok true ∧
        Engine.outcome {} (account "O'Brien") condition.text = .ok false := by
  intro literal criterion account
  have hpath : criterion.path = ⟨"Account", "Owner.LastName"⟩ := by unfold criterion; decide
  have hop : comparison? criterion.operator = some .equal := rfl
  have hwrites : criterion.Writes (.record criterion.path) literal := by
    have hplain : IsPlainWord ("Account" ++ "Owner.LastName") := by decide
    refine .field rfl ?_ ?_ ?_
    · rw [hpath]; decide
    · rw [hpath]; decide
    · rw [hpath, ← String.toList_append]; exact hplain.2
  have hlength : (Variable.record criterion.path).name.length = 22 := by rw [hpath]; decide
  have hcondition : criterion.condition = .ok ⟨.record criterion.path, .equal, literal⟩ :=
    (condition_eq_ok_iff_of_writes hop hwrites _).2 ⟨rfl, by decide⟩
  obtain ⟨hlexemes, hprograms⟩ := (condition_keeps_literal hop hwrites).2 _ hcondition
  rw [hlength] at hlexemes
  have hisOk : (Program.ofRule (account literal) .lenient
      (Condition.mk (.record criterion.path) .equal literal).text).isOk = true := by
    rw [hpath]
    decide +kernel
  cases hprogram : Program.ofRule (account literal) .lenient
      (Condition.mk (.record criterion.path) .equal literal).text with
  | error error =>
    rw [hprogram] at hisOk
    cases hisOk
  | ok program =>
    obtain ⟨v, -, hcode, -⟩ := hprograms {} (account literal) program hprogram
    refine ⟨hop, hwrites, _, program, v, hcondition, hlexemes, hprogram, hcode, ?_, ?_⟩
    · rw [hpath]
      decide +kernel
    · rw [hpath]
      decide +kernel

end Criterion

end Targeting
