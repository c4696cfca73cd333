import Targeting.Proofs.Definition.Combination
import Targeting.Proofs.Definition.FormulaText

/-!
# Criteria combined by a formula

A formula names criteria by their numbers. Its rule has the condition of each number in the place of
the number, without parentheses. Where each condition is a single comparison, it binds more tightly
than what stands around it, so the rule comes to what the formula says of the conditions, with `AND`
before `OR`.

## Main definitions

* `Targeting.Expression.truthWith` — what a formula says, given what each number does.
* `Targeting.Definition.textFor`, `Targeting.Definition.truthFor?` — the condition that a number
  stands for, and what it comes to.

## Main results

* `Targeting.Formula.hasTruth_tokens` — what the lexemes of an expanded formula come to.
* `Targeting.Definition.replace_number` — what a number is replaced by.
* `Targeting.Definition.toRule_formula` — the rule of a definition with a formula.
-/

set_option autoImplicit false

namespace Targeting

/-- What the tree of a formula says, given what each number does. -/
def Expression.truthWith (valuation : String → Bool) : Expression → Bool
  | atom (.text digits) _ => valuation digits
  | group _ inner _ => inner.truthWith valuation
  | binary .and _ left right => left.truthWith valuation && right.truthWith valuation
  | binary .or _ left right => left.truthWith valuation || right.truthWith valuation
  | _ => false

/-- An outline has at least one lexeme. -/
lemma Outline.lexemes_ne_nil (o : Outline) : o.lexemes ≠ [] := by
  cases o <;> simp [lexemes]

/-- A text with lexemes is not blank. -/
lemma Spells.isBlank_eq_false {rule : String} {lexemes : List Lexeme}
    (h : Spells rule.toList lexemes) (hne : lexemes ≠ []) : isBlank rule = false := by
  rw [← Bool.not_eq_true]
  intro hblank
  obtain ⟨located, hlocated, rfl⟩ := spells_iff.1 h
  rw [lexemesOf_of_isBlank hblank] at hlocated
  obtain rfl := Except.ok.inj hlocated
  exact hne rfl

namespace Formula

/-- The lexemes of an expanded formula are those of an expression. It comes to a truth value exactly
when the conditions of all numbers do, and then to what the formula says of them.

**Proof sketch.** Induction on the tree, at each level up to that of comparisons. Above this level
stand only operands of comparisons, which a formula does not have. -/
theorem hasTruth_tokens {scene : Scene} {spelled : String → List Lexeme}
    {value : String → Option Bool} (e : Expression) {level : Nat} (hlevel : level ≤ 3)
    (hfits : e.FitsAt level)
    (hpieces : ∀ token ∈ e.tokens, ∃ piece : Piece, piece.token? = some token.value)
    (hnumbers : ∀ digits, .text digits ∈ e.tokens.map (·.value) →
      HasTruth scene 3 (spelled digits) (value digits)) :
    ∃ v, HasTruth scene level (e.tokens.flatMap fun token => spelledToken spelled token.value) v ∧
      (v.isSome = true ↔
        ∀ digits, .text digits ∈ e.tokens.map (·.value) → (value digits).isSome = true) ∧
      ∀ valuation : String → Bool,
        (∀ digits, .text digits ∈ e.tokens.map (·.value) →
          value digits = some (valuation digits)) →
        v = some (e.truthWith valuation) := by
  induction e generalizing level with
  | atom a column =>
    cases a with
    | text digits =>
      have hmem : Token.text digits ∈
          (Expression.atom (.text digits) column).tokens.map (·.value) :=
        List.mem_cons_self ..
      refine ⟨value digits, ?_, ?_, fun valuation h => h digits hmem⟩
      · simpa [Expression.tokens, Atom.token, spelledToken] using (hnumbers digits hmem).mono hlevel
      · simp [Expression.tokens, Atom.token]
    | truth | «variable» =>
      obtain ⟨piece, hpiece⟩ := hpieces _ (List.mem_cons_self ..)
      cases piece <;> cases hpiece
  | group opening inner closing ih =>
    have hmem : ∀ digits, Token.text digits ∈ (Expression.group opening inner closing).tokens.map
        (·.value) ↔ Token.text digits ∈ inner.tokens.map (·.value) := by
      intro digits
      simp [Expression.tokens]
    simp only [hmem] at hnumbers ⊢
    have hinner : ∀ token ∈ inner.tokens, ∃ piece : Piece, piece.token? = some token.value :=
      fun token htoken => hpieces token (by simp [Expression.tokens, htoken])
    obtain ⟨v, htruth, hv⟩ := ih (by decide : 1 ≤ 3) hfits hinner hnumbers
    refine ⟨v, ?_, hv⟩
    simpa [Expression.tokens, spelledToken] using htruth.group level
  | binary op column left right ihl ihr =>
    obtain ⟨hle, hleft, hright⟩ := hfits
    have hmem : ∀ digits, Token.text digits ∈ (Expression.binary op column left right).tokens.map
        (·.value) ↔ Token.text digits ∈ left.tokens.map (·.value) ∨
          Token.text digits ∈ right.tokens.map (·.value) := by
      intro digits
      simp [Expression.tokens]
    simp only [hmem, or_imp, forall_and] at hnumbers ⊢
    -- a formula has no operators but the connectives
    obtain ⟨piece, hpiece⟩ := hpieces ⟨.operator op, column⟩ (by simp [Expression.tokens])
    obtain ⟨f, hop, hwith⟩ : ∃ f, op.connect? = some f ∧ ∀ valuation,
        (Expression.binary op column left right).truthWith valuation =
          f (left.truthWith valuation) (right.truthWith valuation) := by
      cases piece <;> cases hpiece <;> exact ⟨_, rfl, fun _ => rfl⟩
    have hop3 : op.precedence + 1 ≤ 3 := by
      cases op <;> first | decide | cases hop
    obtain ⟨v, hl, hlsome, hlwith⟩ := ihl (Nat.le_of_succ_le hop3) hleft
      (fun token htoken => hpieces token (by simp [Expression.tokens, htoken])) hnumbers.1
    obtain ⟨w, hr, hrsome, hrwith⟩ := ihr hop3 hright
      (fun token htoken => hpieces token (by simp [Expression.tokens, htoken])) hnumbers.2
    refine ⟨v.bind fun l => w.map fun r => f l r, ?_, ?_, ?_⟩
    · simpa [Expression.tokens, spelledToken] using (hl.connect hop hr).mono hle
    · rw [← hlsome, ← hrsome]
      cases v <;> cases w <;> simp
    · rintro valuation ⟨hvl, hvr⟩
      rw [hlwith valuation hvl, hrwith valuation hvr, hwith]
      rfl

end Formula

namespace Definition

variable {definition : Definition} {all : List (UInt32 × Condition)}

/-- The text of the condition that a number stands for: that of the last criterion with the
number. -/
def textFor (definition : Definition) (digits : String) : String :=
  ((definition.lastNumbered? (readDigits digits.toList)).map (·.entry.2.text)).getD ""

/-- What the condition that a number stands for comes to by itself. -/
def truthFor? (definition : Definition) (engine : Engine) (snapshot : Snapshot) (digits : String) :
    Option Bool :=
  (definition.lastNumbered? (readDigits digits.toList)).bind (·.truth? engine snapshot)

/-- A number names the last criterion with it, and none if it has more than 32 bits, as no criterion
has such a number. -/
lemma bind_number?_textOf? (h : conditions definition.ordered = .ok all) (digits : List Char) :
    (Formula.number? digits).bind (textOf? (keepLast all)) =
      (definition.lastNumbered? (readDigits digits)).map (·.entry.2.text) := by
  unfold Formula.number?
  dsimp only
  split_ifs with hfits
  · have hlt : readDigits digits < 2 ^ 32 := by simpa [fitsWord] using hfits
    rw [Option.bind_some, textOf?_keepLast h, UInt32.toNat_ofNat_of_lt' hlt]
  · have hnone : definition.lastNumbered? (readDigits digits) = none := by
      rw [← Option.not_isSome_iff_eq_none, lastNumbered?_isSome_iff]
      rintro ⟨criterion, -, hnumber⟩
      have hlt := criterion.number.toNat_lt
      rw [hnumber] at hlt
      exact hfits (by simpa [fitsWord] using hlt)
    rw [hnone]
    rfl

/-- What a number is replaced by.

**Proof sketch.** A number is none of the two connectives, since these have a character that is no
digit, so it is looked up. What is kept for it is the condition of the last criterion with the
number. -/
lemma replace_number (h : conditions definition.ordered = .ok all) {digits : String}
    (hwell : (Formula.Piece.number digits).WellFormed) :
    (Formula.Piece.number digits).replace (textOf? (keepLast all)) =
      match definition.lastNumbered? (readDigits digits.toList) with
      | some criterion => .ok criterion.entry.2.text.toList
      | none => .error (.unknownPlaceholder digits) := by
  obtain ⟨hne, hdigits⟩ := hwell
  have hword : ∀ word : List Char, (∃ c ∈ word, c.isDigit = false) → digits.toList ≠ word := by
    rintro word ⟨c, hc, hdigit⟩ rfl
    rw [hdigits c hc] at hdigit
    cases hdigit
  have hand : digits.toList ≠ "AND".toList := hword _ ⟨'A', by decide, by decide⟩
  have hor : digits.toList ≠ "OR".toList := hword _ ⟨'O', by decide, by decide⟩
  have hnumber : (!digits.toList.isEmpty && digits.toList.all Char.isDigit) = true := by
    simpa [List.all_eq_true] using ⟨hne, hdigits⟩
  have hisWord : (Formula.Piece.number digits).IsWord := trivial
  rw [Formula.Piece.replace, if_pos hisWord, Formula.replaceWord, Formula.Piece.source,
    if_neg hand, if_neg hor, if_pos hnumber, bind_number?_textOf? h]
  cases definition.lastNumbered? (readDigits digits.toList) <;> simp

/-- A definition whose criteria all have conditions and whose formula is expanded has a rule unless
this is blank. -/
lemma combine_formula {text : String} (hcombination : definition.combination = .formula)
    (hformula : definition.formula = some text) (kept : List (UInt32 × Condition)) :
    definition.combine kept =
      (Formula.expandFrom (textOf? kept) [] text.toList).map String.ofList := by
  unfold combine
  rw [hcombination, hformula]
  rfl

/-- What the pieces of a formula are replaced by, if each number has a criterion. -/
lemma replace_eq_written (h : conditions definition.ordered = .ok all)
    {pieces : List Formula.Piece} (hwell : ∀ piece ∈ pieces, piece.WellFormed)
    (hnumbers : ∀ digits, .number digits ∈ pieces →
      (definition.lastNumbered? (readDigits digits.toList)).isSome = true) :
    ∀ piece ∈ pieces, piece.replace (textOf? (keepLast all)) =
      .ok (piece.written definition.textFor) := by
  intro piece hmem
  cases piece with
  | number digits =>
    obtain ⟨criterion, hlast⟩ := Option.isSome_iff_exists.1 (hnumbers digits hmem)
    rw [replace_number h (hwell _ hmem), Formula.Piece.written, textFor, hlast]
    rfl
  | _ => rfl

/-- The condition that a number stands for is a single comparison, which comes by itself to what the
number does. -/
lemma textFor_spec (hsingle : ∀ criterion ∈ definition.criteria, ∃ condition,
      criterion.condition = .ok condition ∧ IsComparison condition.text) {digits : String}
    (h : (definition.lastNumbered? (readDigits digits.toList)).isSome = true) (engine : Engine)
    (snapshot : Snapshot) :
    IsComparison (definition.textFor digits) ∧
      definition.truthFor? engine snapshot digits =
        (engine.outcome snapshot (definition.textFor digits)).toOption := by
  obtain ⟨criterion, hlast⟩ := Option.isSome_iff_exists.1 h
  obtain ⟨condition, hcondition, hcomparison⟩ := hsingle criterion (mem_of_lastNumbered? hlast).1
  have htext : definition.textFor digits = condition.text := by
    rw [textFor, hlast, Option.map_some, Option.getD_some, criterion.entry_eq hcondition]
  rw [htext, truthFor?, hlast, Option.bind_some, truth?_eq hcondition,
    criterion.entry_eq hcondition]
  exact ⟨hcomparison, rfl⟩

/-- A definition has no rule if a number in its formula has no criterion. -/
lemma toRule_of_missing {text : String} {pieces : List Formula.Piece}
    (hcombination : definition.combination = .formula)
    (hformula : definition.formula = some text) (hlaid : Formula.LaidOut pieces text.toList)
    (hall : conditions definition.ordered = .ok all) {digits : String}
    (hmem : .number digits ∈ pieces)
    (hnone : definition.lastNumbered? (readDigits digits.toList) = none) :
    ∃ fault, definition.toRule = .error (.criterion fault) := by
  have hreplace := replace_number hall (hlaid.wellFormed _ hmem)
  rw [hnone] at hreplace
  obtain ⟨fault, hfault⟩ := Formula.expandFrom_eq_error hlaid hmem hreplace
  have hcombine : definition.combine (keepLast all) = .error fault := by
    rw [combine_formula hcombination hformula, hfault]
    rfl
  exact ⟨fault, bind_eq_error_iff.2 (.inr ⟨all, mapError_eq_ok_iff.2 hall,
    bind_eq_error_iff.2 (.inl (mapError_eq_error_iff.2 ⟨fault, hcombine, rfl⟩))⟩)⟩

/-- The lexemes of the rule of a definition with a formula, and what they come to.

**Proof sketch.** The tokens of the pieces are those of the tree, and their numbers are those among
the pieces. Each number has the text of a comparison, by `Targeting.Definition.textFor_spec`, which
comes to what the criterion comes to. The pieces are written one behind the other, so their lexemes
are those of the comparisons between connectives and parentheses, and what these come to is read off
the tree. -/
lemma hasTruth_formula {text : List Char} {pieces : List Formula.Piece} {tree : Expression}
    (hlaid : Formula.LaidOut pieces text)
    (htree : Derives .disjunction (Formula.tokens pieces) tree)
    (hsingle : ∀ criterion ∈ definition.criteria, ∃ condition,
      criterion.condition = .ok condition ∧ IsComparison condition.text)
    (hnumbers : ∀ digits, .number digits ∈ pieces →
      (definition.lastNumbered? (readDigits digits.toList)).isSome = true)
    (engine : Engine) (snapshot : Snapshot) :
    ∃ lexemes v, Spells (pieces.flatMap (Formula.Piece.written definition.textFor)) lexemes ∧
      HasTruth (engine.scene snapshot (.root snapshot.audience)) 1 lexemes v ∧
      (v.isSome = true ↔ ∀ digits, .number digits ∈ pieces →
        (definition.truthFor? engine snapshot digits).isSome = true) ∧
      ∀ valuation : String → Bool,
        (∀ digits, .number digits ∈ pieces →
          definition.truthFor? engine snapshot digits = some (valuation digits)) →
        v = some (tree.truthWith valuation) := by
  obtain ⟨htokens, hfits⟩ := htree.fits
  have hpieces : ∀ token ∈ tree.tokens,
      ∃ piece : Formula.Piece, piece.token? = some token.value := by
    rw [htokens]
    exact fun token => Formula.exists_piece_of_mem_tokens
  have hmem : ∀ digits, .text digits ∈ tree.tokens.map (·.value) ↔ .number digits ∈ pieces := by
    rw [htokens]
    exact fun digits => Formula.text_mem_tokens_iff
  have hconditions : ∀ digits, .text digits ∈ tree.tokens.map (·.value) →
      HasTruth (engine.scene snapshot (.root snapshot.audience)) 3
        (lexemesIn (definition.textFor digits)) (definition.truthFor? engine snapshot digits) := by
    intro digits hdigits
    obtain ⟨hcomparison, htruth⟩ :=
      textFor_spec hsingle (hnumbers digits ((hmem digits).1 hdigits)) engine snapshot
    rw [htruth]
    exact (hcomparison.hasTruth engine snapshot).2
  have hspells := Formula.spells_written hlaid fun digits hdigits =>
    ((textFor_spec hsingle (hnumbers digits hdigits) engine snapshot).1.hasTruth engine snapshot).1
  obtain ⟨v, htruth, hv⟩ :=
    Formula.hasTruth_tokens tree (by decide : 1 ≤ 3) hfits hpieces hconditions
  rw [htokens, Formula.flatMap_tokens] at htruth
  simp only [hmem] at hv
  exact ⟨_, v, hspells, htruth, hv⟩

/-- **A formula keeps its meaning.** Where the criteria of a definition have single comparisons as
their conditions, its formula is read in just one way, with `AND` before `OR`. The definition has no
rule exactly when a number in the formula has no criterion. Otherwise the rule is the formula with
the text of its condition in the place of each number, and nothing else replaced. It has an outcome
exactly when the condition of each number in the formula has one by itself, and the outcome is then
what the formula says of these conditions.

**Proof sketch.** The lexemes of the rule are those of the tree of the formula with a comparison in
the place of each number, which fits wherever the number does. -/
theorem toRule_formula {text : String} {pieces : List Formula.Piece}
    (hcombination : definition.combination = .formula)
    (hformula : definition.formula = some text) (hlaid : Formula.LaidOut pieces text.toList)
    (hgenerates : Formula.Generates (pieces.filter fun piece => piece.token?.isSome))
    (hsingle : ∀ criterion ∈ definition.criteria, ∃ condition,
      criterion.condition = .ok condition ∧ IsComparison condition.text) :
    ∃ tree, Derives .disjunction (Formula.tokens pieces) tree ∧
      (∀ other, Derives .disjunction (Formula.tokens pieces) other → other = tree) ∧
      ((∃ fault, definition.toRule = .error (.criterion fault)) ↔
        ∃ digits, .number digits ∈ pieces ∧
          ∀ criterion ∈ definition.criteria,
            criterion.number.toNat ≠ readDigits digits.toList) ∧
      ((∀ digits, .number digits ∈ pieces →
          ∃ criterion ∈ definition.criteria,
            criterion.number.toNat = readDigits digits.toList) →
        ∃ defined, definition.toRule = .ok defined ∧
          defined.rule.toList = pieces.flatMap (Formula.Piece.written definition.textFor) ∧
          ∀ engine snapshot,
            ((engine.outcome snapshot defined.rule).isOk = true ↔
              ∀ digits, .number digits ∈ pieces →
                (definition.truthFor? engine snapshot digits).isSome = true) ∧
            ∀ valuation : String → Bool,
              (∀ digits, .number digits ∈ pieces →
                definition.truthFor? engine snapshot digits = some (valuation digits)) →
              engine.outcome snapshot defined.rule = .ok (tree.truthWith valuation)) := by
  obtain ⟨tree, htree⟩ := hgenerates.exists_derives
  rw [Formula.tokens_filter] at htree
  have hall : conditions definition.ordered = .ok (definition.ordered.map Criterion.entry) := by
    refine conditions_eq_ok_iff.2 ⟨fun criterion hmem => ?_, rfl⟩
    obtain ⟨condition, hcondition, -⟩ := hsingle criterion (mem_ordered.1 hmem)
    rw [hcondition]
    rfl
  -- with a criterion for each number nothing stands in the way of a rule
  have hpresent : (∀ digits, .number digits ∈ pieces →
      (definition.lastNumbered? (readDigits digits.toList)).isSome = true) →
      ∃ defined, definition.toRule = .ok defined ∧
        defined.rule.toList = pieces.flatMap (Formula.Piece.written definition.textFor) := by
    intro hnumbers
    have hexpand := Formula.expandFrom_eq_ok hlaid
      (replace_eq_written hall hlaid.wellFormed hnumbers)
    obtain ⟨lexemes, v, hspells, ⟨o, -, rfl, -⟩, -⟩ :=
      hasTruth_formula hlaid htree hsingle hnumbers {} {}
    rw [← String.toList_ofList (l := pieces.flatMap _)] at hspells
    refine ⟨_, toRule_eq_ok_iff.2 ⟨_, _, hall, ?_, hspells.isBlank_eq_false o.lexemes_ne_nil, rfl⟩,
      String.toList_ofList⟩
    rw [combine_formula hcombination hformula, hexpand]
    rfl
  refine ⟨tree, htree, fun other hother => htree.unique hother, ?_, fun hnumbers => ?_⟩
  · constructor
    · rintro ⟨fault, hfault⟩
      by_contra hmissing
      push Not at hmissing
      obtain ⟨defined, hrule, -⟩ :=
        hpresent fun digits hmem => lastNumbered?_isSome_iff.2 (hmissing digits hmem)
      cases hrule.symm.trans hfault
    · rintro ⟨digits, hmem, hmissing⟩
      refine toRule_of_missing hcombination hformula hlaid hall hmem ?_
      rw [← Option.not_isSome_iff_eq_none, lastNumbered?_isSome_iff]
      push Not
      exact hmissing
  · simp only [← lastNumbered?_isSome_iff] at hnumbers
    obtain ⟨defined, hrule, htext⟩ := hpresent hnumbers
    refine ⟨defined, hrule, htext, fun engine snapshot => ?_⟩
    obtain ⟨lexemes, v, hspells, htruth, hsome, hvalue⟩ :=
      hasTruth_formula hlaid htree hsingle hnumbers engine snapshot
    rw [← htext] at hspells
    have houtcome := engine.outcome_of_hasTruth snapshot hspells htruth
    rw [← isSome_toOption_iff, houtcome]
    refine ⟨hsome, fun valuation hvaluation => ?_⟩
    rw [← toOption_eq_some_iff, houtcome]
    exact hvalue valuation hvaluation

/-- A number with a leading zero and one of two digits, and literals that look like formulas.

**Proof sketch.** The formula is laid out and has a grammar of its own, which is given, and each
number is that of a criterion. That criteria have conditions, and the rule itself, is computed, and
so is that the field is a plain word; the rest is the theorem. -/
theorem toRule_formula_literals :
    let definition : Definition :=
      { name := "Partners"
        combination := .formula
        formula := some "(01 AND 2)OR 10"
        criteria :=
          [{ number := 10, operator := "Equal", type := "FieldBased"
             details := { entityType := "Account", entityField := "Name", fieldValue := "AND" } },
           { number := 1, operator := "Equal", type := "Profile"
             details := { profile := "1 OR 2" } },
           { number := 2, operator := "NotEqual", type := "Permission"
             details := { permissionName := "orders", permissionType := "Custom" } }] }
    let pieces : List Formula.Piece :=
      [.opening, .number "01", .blank ' ', .and, .blank ' ', .number "2", .closing, .or, .blank ' ',
        .number "10"]
    ∃ tree defined, Derives .disjunction (Formula.tokens pieces) tree ∧
      definition.toRule = .ok defined ∧
      defined.rule = "(Profile == '1 OR 2' && Permission != 'orders')|| Account.Name == 'AND'" ∧
      ∀ engine snapshot, ∀ valuation : String → Bool,
        (∀ digits, .number digits ∈ pieces →
          definition.truthFor? engine snapshot digits = some (valuation digits)) →
        engine.outcome snapshot defined.rule = .ok (tree.truthWith valuation) := by
  intro definition pieces
  have hgenerates : Formula.Generates (pieces.filter fun piece => piece.token?.isSome) :=
    .or (.group (.and (.number "01") (.number "2"))) (.number "10")
  have hcriteria : ∀ criterion ∈ definition.criteria, criterion.condition.isOk = true ∧
      (criterion.type = "FieldBased" → IsPlainWord criterion.path.text) := by
    unfold definition
    decide +kernel
  have hsingle : ∀ criterion ∈ definition.criteria, ∃ condition,
      criterion.condition = .ok condition ∧ IsComparison condition.text := by
    intro criterion hmem
    obtain ⟨hok, hword⟩ := hcriteria criterion hmem
    obtain ⟨condition, hcondition⟩ := Option.isSome_iff_exists.1 (isSome_toOption_iff.2 hok)
    have hcondition := toOption_eq_some_iff.1 hcondition
    refine ⟨condition, hcondition, ?_⟩
    by_cases htype : criterion.type = "FieldBased"
    · exact criterion.isComparison_of_isPlainWord hcondition htype (hword htype)
    · exact criterion.isComparison_of_type_ne hcondition htype
  have hnumbers : ∀ digits, .number digits ∈ pieces → ∃ criterion ∈ definition.criteria,
      criterion.number.toNat = readDigits digits.toList := by
    intro digits hdigits
    have hcases : digits = "01" ∨ digits = "2" ∨ digits = "10" := by simpa [pieces] using hdigits
    unfold definition
    rcases hcases with rfl | rfl | rfl <;> decide +kernel
  have htext : (definition.toRule.map (·.rule)).toOption =
      some "(Profile == '1 OR 2' && Permission != 'orders')|| Account.Name == 'AND'" := by
    unfold definition
    decide +kernel
  obtain ⟨defined, hrule, htext⟩ := map_eq_ok_iff.1 (toOption_eq_some_iff.1 htext)
  have hcombination : definition.combination = .formula := rfl
  have hformula : definition.formula = some "(01 AND 2)OR 10" := rfl
  have hlaid : Formula.LaidOut pieces "(01 AND 2)OR 10".toList := by
    unfold pieces
    decide +kernel
  obtain ⟨tree, htree, -, -, hpresent⟩ :=
    toRule_formula hcombination hformula hlaid hgenerates hsingle
  obtain ⟨defined', hrule', -, houtcome⟩ := hpresent hnumbers
  obtain rfl := Except.ok.inj (hrule.symm.trans hrule')
  exact ⟨tree, defined, htree, hrule, htext, fun engine snapshot => (houtcome engine snapshot).2⟩

end Definition

end Targeting
