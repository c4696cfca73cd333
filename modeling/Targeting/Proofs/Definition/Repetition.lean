import Targeting.Proofs.Definition.Formula
import Targeting.Proofs.Definition.WellFormed
import Targeting.Proofs.Evaluation.Connectives

/-!
# One criterion in a rule

The rule of a definition with one criterion is the text of its condition, or a formula in which this
text stands wherever a number does. If the formula has nothing besides numbers, connectives and
parentheses, then it is a matter of one condition alone: whatever comes to one truth value is joined
to itself, and neither a conjunction nor a disjunction changes the value. So the rule comes to what
the condition comes to, however often it is in the rule.

Whether a definition has such a rule, and whether the rule is well formed, is a matter of the
formula and not of the condition, as long as this is a single comparison.

## Main definitions

* `Targeting.Formula.IsPart`, `Targeting.Formula.OnlyConnects` — formulas of numbers, connectives
  and parentheses.
* `Targeting.Formula.IsConnection` — those that form an expression.
* `Targeting.Definition.OnlyRepeats` — whether a definition joins its criterion only to itself.

## Main results

* `Targeting.Formula.spells_expandFrom` — the lexemes of an expanded formula of this kind.
* `Targeting.Formula.hasTruth_repeated` — one comparison joined to itself.
* `Targeting.Definition.outcomeFor_repeated` — the rule comes to what the condition does.
* `Targeting.Definition.exists_toRule_of_toRule` — with another condition there is a rule, too.
-/

set_option autoImplicit false

namespace Targeting

/-! ## Rules that come to a truth value -/

/-- The lexemes of an outline form an expression. -/
lemma Outline.isExpression (o : Outline) : IsExpression (o.lexemes.map Lexeme.asToken) := by
  induction o with
  | word | quoted => exact .operand rfl
  | group inner ih => simpa [lexemes, Lexeme.asToken] using ih.group
  | binary op left right ihl ihr => simpa [lexemes, Lexeme.asToken] using ihl.binary op ihr

/-- A rule that spells an outline is well formed. -/
lemma Outline.isWellFormed {o : Outline} {rule : String} (h : Spells rule.toList o.lexemes) :
    IsWellFormed rule :=
  h.isWellFormed_iff.2 o.isExpression.isWhole

/-- A rule that comes to a truth value is well formed. -/
lemma Engine.isWellFormed_of_outcomeFor {engine : Engine} {snapshot : Snapshot}
    {audience rule : String} {b : Bool} (h : engine.outcomeFor snapshot audience rule = .ok b) :
    IsWellFormed rule := by
  obtain ⟨_, houtcome, -⟩ := map_eq_ok_iff.1 h
  obtain ⟨program, hprogram, -⟩ := bind_eq_ok_iff.1 houtcome
  obtain ⟨o, -, -, hspells, -⟩ := Program.isOk_ofRule_iff.1 (by rw [hprogram]; rfl)
  exact o.isWellFormed hspells

/-- A rule comes to what its lexemes do, as the rule of any audience. -/
lemma Engine.outcomeFor_of_hasTruth (engine : Engine) (snapshot : Snapshot) (audience : String)
    {rule : String} {lexemes : List Lexeme} {truth : Option Bool}
    (hspells : Spells rule.toList lexemes)
    (h : HasTruth (engine.scene snapshot (.root audience)) 1 lexemes truth) :
    (engine.outcomeFor snapshot audience rule).toOption = truth := by
  obtain ⟨o, hfits, rfl, rfl⟩ := h
  rw [outcomeFor, toOption_map, outcomeOn_of_outline engine snapshot _ hfits hspells]

/-- A single comparison has the lexemes of an expression that may stand next to any connective. -/
lemma IsComparison.exists_hasTruth {text : String} (h : IsComparison text) (scene : Scene) :
    Spells text.toList (lexemesIn text) ∧ ∃ truth, HasTruth scene 3 (lexemesIn text) truth := by
  obtain ⟨op, left, right, hop, hleft, hright, hspells⟩ := h
  rw [hspells.lexemesIn_eq]
  have hlevel : op.precedence = 3 := eq_of_beq hop
  exact ⟨hspells, _, .binary op left right, ⟨hlevel.ge, hleft.fitsAt _, hright.fitsAt _⟩, rfl, rfl⟩

/-- A single comparison is a well-formed rule. -/
lemma IsComparison.isWellFormed {text : String} (h : IsComparison text) : IsWellFormed text := by
  obtain ⟨op, left, right, -, -, -, hspells⟩ := h
  exact Outline.isWellFormed hspells

/-! ## Formulas of connectives -/

namespace Formula

/-- Whether a lexeme of a formula is a number, a connective or a parenthesis. -/
def IsPart : Lexeme → Prop
  | .word text => IsReplaced text.toList
  | .operator op => op.connect?.isSome
  | .opening | .closing => True
  | .quoted _ => False

instance : DecidablePred IsPart
  | .word text => inferInstanceAs (Decidable (IsReplaced text.toList))
  | .operator op => inferInstanceAs (Decidable (op.connect?.isSome = true))
  | .opening | .closing => .isTrue trivial
  | .quoted _ => .isFalse id

/-- Whether a formula has nothing besides numbers, connectives, parentheses and blanks. -/
def OnlyConnects (formula : String) : Prop :=
  ∃ lexemes, Spells formula.toList lexemes ∧ ∀ lexeme ∈ lexemes, IsPart lexeme

/-- In a part of a formula nothing is replaced but all of it. -/
lemma IsPart.isApart {lexeme : Lexeme} (h : IsPart lexeme) : IsApart lexeme := by
  cases lexeme with
  | word text => exact .inl h
  | quoted text => exact absurd h id
  | _ => trivial

variable {condition : UInt32 → Option String} {spelled : List Lexeme}

/-- The lexemes of a part of a formula, given those of each condition. -/
def spelledPart (spelled : List Lexeme) (lexeme : Lexeme) : List Lexeme :=
  spelledToken (fun _ => spelled) (token lexeme)

/-- What a word that is replaced is spelled as. -/
lemma spells_replaceWord (hcondition : ∀ number text, condition number = some text →
      Spells text.toList spelled) {text : String} {written : List Char}
    (hreplaced : IsReplaced text.toList) (h : replaceWord condition text.toList = .ok written) :
    Spells written (spelledPart spelled (.word text)) := by
  rcases replaceWord_cases h with ⟨hstays, -⟩ | ⟨-, op, htoken, rfl⟩ | ⟨hnumber, found, hfound, rfl⟩
  · exact absurd hreplaced hstays
  · rw [String.ofList_toList] at htoken
    rw [spelledPart, htoken, ← List.append_nil op.symbol.toList]
    exact .operator op .nil
  · obtain ⟨number, -, hfound⟩ := Option.bind_eq_some_iff.1 hfound
    rw [spelledPart, hnumber.token_word]
    exact hcondition number found hfound

/-- **What a formula is spelled as.** The lexemes of an expanded formula of numbers and connectives
are those of its parts.

**Proof sketch.** Induction on the items of the formula. What stands behind a word lets it end, and
still does so behind what the word is replaced by. -/
theorem spells_expandFrom (hcondition : ∀ number text, condition number = some text →
      Spells text.toList spelled) {items : List Item} {text chars : List Char}
    (h : Decomposes items text) (hparts : ∀ lexeme ∈ items.filterMap Item.lexeme?, IsPart lexeme)
    (hchars : expandFrom condition [] text = .ok chars) :
    (EndsWord text → EndsWord chars) ∧
      Spells chars ((items.filterMap Item.lexeme?).flatMap (spelledPart spelled)) := by
  induction items generalizing text chars with
  | nil =>
    obtain rfl : [] = text := h.source
    obtain rfl := Except.ok.inj hchars
    exact ⟨id, .nil⟩
  | cons item items ih =>
    obtain ⟨rest, rfl, hitem, hrest, hword⟩ := h.of_cons
    have hlexemes : (item :: items).filterMap Item.lexeme? =
        item.lexeme?.toList ++ items.filterMap Item.lexeme? := by
      rw [List.filterMap_cons]
      cases item.lexeme? <;> rfl
    rw [hlexemes] at hparts ⊢
    obtain ⟨hpart, hothers⟩ := List.forall_mem_append.1 hparts
    rw [List.flatMap_append]
    -- what is no word stays as it is
    have hstays : (∀ c ∈ item.source, isWordChar c = false) →
        item.lexeme?.toList.flatMap (spelledPart spelled) = item.lexeme?.toList →
        (∀ glyphs, item ≠ .word glyphs) →
        (EndsWord (item.source ++ rest) → EndsWord chars) ∧
          Spells chars (item.lexeme?.toList.flatMap (spelledPart spelled) ++
            (items.filterMap Item.lexeme?).flatMap (spelledPart spelled)) := by
      intro hsource hsame hne
      rw [expandFrom_of_forall_not hsource] at hchars
      obtain ⟨others, hbehind, rfl⟩ := map_eq_ok_iff.1 hchars
      rw [hsame]
      refine ⟨fun hends => ?_, (ih hrest hothers hbehind).2.cons item hitem
        fun glyphs hglyphs => absurd hglyphs (hne glyphs)⟩
      have hprecede := (Item.endsWord_source_iff hitem [] rest).1 hends
      exact (Item.endsWord_source_iff hitem [] others).2 hprecede
    cases item with
    | blank c =>
      exact hstays (List.forall_mem_singleton.2 (isWordChar_of_isBlankChar hitem)) rfl (by simp)
    | opening | closing =>
      exact hstays (List.forall_mem_singleton.2 (isWordChar_of_breaksWord rfl)) rfl (by simp)
    | operator op =>
      have hbreaks : breaksWord op.chars.1 = true ∧ breaksWord op.chars.2 = true := by
        cases op <;> decide
      exact hstays (List.forall_mem_cons.2 ⟨isWordChar_of_breaksWord hbreaks.1,
        List.forall_mem_singleton.2 (isWordChar_of_breaksWord hbreaks.2)⟩) rfl (by simp)
    | quoted glyphs => exact absurd (hpart _ (List.mem_singleton_self _)) id
    | word glyphs =>
      have hreplaced : IsReplaced (glyphText glyphs).toList := hpart _ (List.mem_singleton_self _)
      have hsource : glyphSource glyphs = (glyphText glyphs).toList := by
        rw [glyphText, String.toList_ofList] at hreplaced ⊢
        exact glyphSource_of_isReplaced hreplaced
      rw [Item.source, hsource, expandFrom_append fun _ => hreplaced.isWordChar,
        List.append_nil, expandFrom_of_endsName (endsName_of_endsWord (hword glyphs rfl)),
        List.reverse_reverse] at hchars
      obtain ⟨written, hwritten, hchars⟩ := bind_eq_ok_iff.1 hchars
      obtain ⟨others, hbehind, rfl⟩ := map_eq_ok_iff.1 hchars
      obtain ⟨hends, hspells⟩ := ih hrest hothers hbehind
      refine ⟨fun hbegin => absurd ((Item.endsWord_source_iff hitem [] rest).1 hbegin) id, ?_⟩
      have hfirst := spells_replaceWord hcondition hreplaced hwritten
      simpa [Item.lexeme?] using hfirst.append hspells (hends (hword glyphs rfl))

/-- A word is replaced by other conditions if each number that has a condition has another one.

**Proof sketch.** By cases on the word. A connective and a word that is no number do not depend on
the conditions, and a number that has a condition has another one by `hother`. -/
lemma exists_replaceWord {other : UInt32 → Option String}
    (hother : ∀ number, (condition number).isSome = true → (other number).isSome = true)
    {word written : List Char} (h : replaceWord condition word = .ok written) :
    ∃ others, replaceWord other word = .ok others := by
  unfold replaceWord at h ⊢
  split_ifs at h ⊢ with hand hor hnumber
  · exact ⟨_, rfl⟩
  · exact ⟨_, rfl⟩
  · cases hfound : number? word with
    | none =>
      rw [hfound] at h
      cases h
    | some number =>
      rw [hfound, Option.bind_some] at h
      cases hold : condition number with
      | none =>
        rw [hold] at h
        cases h
      | some text =>
        obtain ⟨text', htext'⟩ :=
          Option.isSome_iff_exists.1 (hother number (by rw [hold]; rfl))
        rw [Option.bind_some, htext']
        exact ⟨_, rfl⟩
  · exact ⟨_, rfl⟩

/-- A formula is expanded by other conditions if each number with a condition has another one. -/
lemma exists_expandFrom {other : UInt32 → Option String}
    (hother : ∀ number, (condition number).isSome = true → (other number).isSome = true)
    {word text chars : List Char} (h : expandFrom condition word text = .ok chars) :
    ∃ others, expandFrom other word text = .ok others := by
  induction text generalizing word chars with
  | nil => exact exists_replaceWord hother h
  | cons c text ih =>
    rw [expandFrom] at h ⊢
    split_ifs at h ⊢
    · exact ih h
    · obtain ⟨written, hwritten, h⟩ := bind_eq_ok_iff.1 h
      obtain ⟨behind, hbehind, -⟩ := bind_eq_ok_iff.1 h
      obtain ⟨written', hwritten'⟩ := exists_replaceWord hother hwritten
      obtain ⟨behind', hbehind'⟩ := ih hbehind
      rw [hwritten', hbehind']
      exact ⟨_, rfl⟩

/-- **One comparison joined to itself.** Where each number of a formula has the same comparison, the
formula comes to what the comparison comes to.

**Proof sketch.** Induction on the tree, at each level up to that of comparisons. A connective joins
two equal truth values. -/
theorem hasTruth_repeated {scene : Scene} {truth : Option Bool}
    (hspelled : HasTruth scene 3 spelled truth) (e : Expression) {level : Nat} (hlevel : level ≤ 3)
    (hfits : e.FitsAt level)
    (hpieces : ∀ token ∈ e.tokens, ∃ piece : Piece, piece.token? = some token.value) :
    HasTruth scene level (e.tokens.flatMap fun t => spelledToken (fun _ => spelled) t.value)
      truth := by
  induction e generalizing level with
  | atom a column =>
    obtain ⟨piece, hpiece⟩ := hpieces _ (List.mem_cons_self ..)
    cases a with
    | text digits =>
      simpa [Expression.tokens, Atom.token, spelledToken] using hspelled.mono hlevel
    | truth | «variable» => cases piece <;> cases hpiece
  | group opening inner closing ih =>
    have hinner := ih (by decide : 1 ≤ 3) hfits fun token htoken =>
      hpieces token (by simp [Expression.tokens, htoken])
    simpa [Expression.tokens, spelledToken] using hinner.group level
  | binary op column left right ihl ihr =>
    obtain ⟨hle, hleft, hright⟩ := hfits
    -- a formula has no operators but the connectives
    obtain ⟨piece, hpiece⟩ := hpieces ⟨.operator op, column⟩ (by simp [Expression.tokens])
    obtain ⟨f, hop⟩ : ∃ f, op.connect? = some f := by
      cases piece <;> cases hpiece <;> exact ⟨_, rfl⟩
    obtain ⟨-, -, hsame⟩ := Operator.connect?_laws hop
    have hop3 : op.precedence + 1 ≤ 3 := by
      cases op <;> first | decide | cases hop
    have hl := ihl (Nat.le_of_succ_le hop3) hleft
      fun token htoken => hpieces token (by simp [Expression.tokens, htoken])
    have hr := ihr hop3 hright
      fun token htoken => hpieces token (by simp [Expression.tokens, htoken])
    have hboth := (hl.connect hop hr).mono hle
    have htruth : (truth.bind fun l => truth.map fun r => f l r) = truth := by
      cases truth <;> simp [hsame]
    rw [htruth] at hboth
    simpa [Expression.tokens, spelledToken] using hboth

/-- Whether a formula of numbers, connectives and parentheses forms an expression. -/
def IsConnection (formula : String) : Prop :=
  ∃ lexemes, Spells formula.toList lexemes ∧ (∀ lexeme ∈ lexemes, IsPart lexeme) ∧
    IsWhole (lexemes.map token)

/-- A part of a formula is the token of a piece. -/
lemma IsPart.exists_piece {lexeme : Lexeme} (h : IsPart lexeme) :
    ∃ piece : Piece, piece.token? = some (token lexeme) := by
  cases lexeme with
  | word text =>
    by_cases hand : text = "AND"
    · exact ⟨.and, by rw [hand]; rfl⟩
    by_cases hor : text = "OR"
    · exact ⟨.or, by rw [hor]; rfl⟩
    exact ⟨.number text, by rw [token_word hand hor]; rfl⟩
  | operator op =>
    cases op with
    | and => exact ⟨.and, rfl⟩
    | or => exact ⟨.or, rfl⟩
    | _ => cases h
  | opening => exact ⟨.opening, rfl⟩
  | closing => exact ⟨.closing, rfl⟩
  | quoted text => exact absurd h id

/-- Where each number of a formula has the same comparison, the expanded formula has lexemes that
come to what the comparison comes to.

**Proof sketch.** The expanded formula spells the lexemes of its parts, where each number has become
the comparison, by `Targeting.Formula.spells_expandFrom`. The parts are the tokens of a tree, and a
tree in which all operands come to the same truth value comes to it, by
`Targeting.Formula.hasTruth_repeated`. -/
theorem IsConnection.exists_spells {formula : String} (h : IsConnection formula)
    (hcondition : ∀ number text, condition number = some text → Spells text.toList spelled)
    {rule : String} (hrule : expand condition formula = .ok rule) :
    ∃ lexemes, Spells rule.toList lexemes ∧ ∀ scene truth,
      HasTruth scene 3 spelled truth → HasTruth scene 1 lexemes truth := by
  obtain ⟨parts, ⟨items, hitems, rfl⟩, hparts, hwhole⟩ := h
  obtain ⟨chars, hchars, rfl⟩ := map_eq_ok_iff.1 hrule
  obtain ⟨-, hspells⟩ := spells_expandFrom hcondition hitems hparts hchars
  refine ⟨_, (String.toList_ofList (l := chars)).symm ▸ hspells, fun scene truth htruth => ?_⟩
  generalize items.filterMap Item.lexeme? = parts at hparts hwhole
  let located := parts.map fun part => (⟨token part, 0⟩ : Located Token)
  have hvalues : located.map (·.value) = parts.map token := by simp [located]
  obtain ⟨tree, htree⟩ :=
    checkTokens_eq_ok_iff.1 (checkTokens_eq_ok_iff_isWhole.2 (hvalues ▸ hwhole))
  obtain ⟨htokens, hfits⟩ := htree.fits
  have hpieces : ∀ token ∈ tree.tokens, ∃ piece : Piece, piece.token? = some token.value := by
    rw [htokens]
    exact List.forall_mem_map.2 fun part hpart => (hparts part hpart).exists_piece
  have hrepeated := hasTruth_repeated htruth tree (by decide) hfits hpieces
  rw [htokens, List.flatMap_map] at hrepeated
  exact hrepeated

end Formula

/-! ## Definitions with one criterion -/

namespace Definition

variable {definition : Definition} {defined : DefinedRule} {criterion : Criterion}
  {condition : Condition}

/-- Whether a definition combines a criterion with nothing but itself: if it has a formula, then one
of numbers, connectives and parentheses that forms an expression. -/
def OnlyRepeats (definition : Definition) : Prop :=
  definition.combination = .formula → Formula.IsConnection (definition.formula.getD "")

/-- A definition with one criterion has a rule exactly when its condition combines to a text that is
not blank.

**Proof sketch.** The criterion alone is in order, and its condition is the only one. The rest is
`Targeting.Definition.toRule_eq_ok_iff`. -/
lemma toRule_eq_ok_iff_of_single (hcriteria : definition.criteria = [criterion])
    (hcondition : criterion.condition = .ok condition) :
    definition.toRule = .ok defined ↔
      ∃ rule, definition.combine [(criterion.number, condition)] = .ok rule ∧
        isBlank rule = false ∧
        defined = ⟨definition.name, rule, fieldsOf [(criterion.number, condition)]⟩ := by
  have hordered : definition.ordered = [criterion] := by
    rw [ordered, hcriteria]
    exact List.perm_singleton.1 (sortByKey_perm _ _)
  have hall : conditions definition.ordered = .ok [(criterion.number, condition)] := by
    rw [hordered]
    refine conditions_eq_ok_iff.2 ⟨List.forall_mem_singleton.2 (by rw [hcondition]; rfl), ?_⟩
    rw [List.map_singleton, criterion.entry_eq hcondition]
  rw [toRule_eq_ok_iff]
  constructor
  · rintro ⟨all, rule, h, hcombine, hblank, rfl⟩
    obtain rfl := Except.ok.inj (hall.symm.trans h)
    exact ⟨rule, hcombine, hblank, rfl⟩
  · rintro ⟨rule, hcombine, hblank, rfl⟩
    exact ⟨_, rule, hall, hcombine, hblank, rfl⟩

/-- What one comparison is combined to has lexemes that come to what the comparison comes to.

**Proof sketch.** By cases on the combination. Both connectives join one condition to its own text;
a formula is one that connects this comparison with itself, by
`Targeting.Formula.IsConnection.exists_spells`. -/
lemma exists_spells_combine (hrepeats : definition.OnlyRepeats)
    (hcomparison : IsComparison condition.text) {number : UInt32} {rule : String}
    (h : definition.combine [(number, condition)] = .ok rule) :
    ∃ lexemes, Spells rule.toList lexemes ∧ ∀ scene truth,
      HasTruth scene 3 (lexemesIn condition.text) truth → HasTruth scene 1 lexemes truth := by
  have hspells := (hcomparison.exists_hasTruth (({} : Engine).scene {} (.root ""))).1
  have hjoin : ∀ op, join op [(number, condition)] = condition.text := fun op => by simp [join]
  unfold combine at h
  split at h
  · obtain rfl := Except.ok.inj h
    rw [hjoin]
    exact ⟨_, hspells, fun _ _ htruth => htruth.mono (by decide)⟩
  · obtain rfl := Except.ok.inj h
    rw [hjoin]
    exact ⟨_, hspells, fun _ _ htruth => htruth.mono (by decide)⟩
  · next hcombination =>
    refine (hrepeats hcombination).exists_spells (fun other text htext => ?_) h
    obtain ⟨entry, hentry, rfl⟩ := Option.map_eq_some_iff.1 htext
    obtain rfl := List.mem_singleton.1 (List.mem_of_find?_eq_some hentry)
    exact hspells

/-- **One criterion.** The rule of a definition with one criterion, whose condition is a single
comparison and is combined with nothing but itself, comes to what the condition does. -/
theorem outcomeFor_repeated (hcriteria : definition.criteria = [criterion])
    (hcondition : criterion.condition = .ok condition) (hrepeats : definition.OnlyRepeats)
    (hcomparison : IsComparison condition.text) (hrule : definition.toRule = .ok defined)
    (engine : Engine) (snapshot : Snapshot) (audience : String) :
    (engine.outcomeFor snapshot audience defined.rule).toOption =
      (engine.outcomeFor snapshot audience condition.text).toOption := by
  obtain ⟨rule, hcombine, -, rfl⟩ := (toRule_eq_ok_iff_of_single hcriteria hcondition).1 hrule
  obtain ⟨lexemes, hspells, hlexemes⟩ := exists_spells_combine hrepeats hcomparison hcombine
  obtain ⟨hspelled, truth, htruth⟩ :=
    hcomparison.exists_hasTruth (engine.scene snapshot (.root audience))
  rw [engine.outcomeFor_of_hasTruth snapshot audience hspells (hlexemes _ _ htruth),
    engine.outcomeFor_of_hasTruth snapshot audience hspelled (htruth.mono (by decide))]

/-- Where a definition with one criterion has a rule, so has it with another criterion of the same
number, as long as the conditions are single comparisons.

**Proof sketch.** What combined the one condition combines the other one too: connectives always do,
and a formula finds the same numbers. The combined text spells lexemes that come to something, so it
is not blank. -/
theorem exists_toRule_of_toRule (hcriteria : definition.criteria = [criterion])
    (hcondition : criterion.condition = .ok condition) (hrepeats : definition.OnlyRepeats)
    (hrule : definition.toRule = .ok defined) {criterion' : Criterion} {condition' : Condition}
    (hnumber : criterion'.number = criterion.number)
    (hcondition' : criterion'.condition = .ok condition')
    (hcomparison' : IsComparison condition'.text) :
    ∃ defined', { definition with criteria := [criterion'] }.toRule = .ok defined' := by
  obtain ⟨rule, hcombine, -⟩ := (toRule_eq_ok_iff_of_single hcriteria hcondition).1 hrule
  obtain ⟨rule', hcombine'⟩ :
      ∃ rule', definition.combine [(criterion.number, condition')] = .ok rule' := by
    unfold combine at hcombine ⊢
    split at hcombine
    · next hcombination => exact ⟨_, rfl⟩
    · next hcombination => exact ⟨_, rfl⟩
    · next hcombination =>
      obtain ⟨chars, hchars, -⟩ := map_eq_ok_iff.1 hcombine
      have hother : ∀ number, (textOf? [(criterion.number, condition)] number).isSome = true →
          (textOf? [(criterion.number, condition')] number).isSome = true := by
        simp [textOf?]
      obtain ⟨chars', hchars'⟩ := Formula.exists_expandFrom hother hchars
      exact ⟨_, map_eq_ok_iff.2 ⟨chars', hchars', rfl⟩⟩
  obtain ⟨lexemes, hspells, hlexemes⟩ := exists_spells_combine hrepeats hcomparison' hcombine'
  obtain ⟨-, truth, htruth⟩ := hcomparison'.exists_hasTruth (({} : Engine).scene {} (.root ""))
  obtain ⟨o, -, rfl, -⟩ := hlexemes _ _ htruth
  have hblank := hspells.isBlank_eq_false o.lexemes_ne_nil
  rw [← hnumber] at hcombine'
  exact ⟨_, (toRule_eq_ok_iff_of_single rfl hcondition').2 ⟨rule', hcombine', hblank, rfl⟩⟩

/-- A definition with one criterion whose rule comes to a truth value combines the criterion with
nothing but itself, if its formula has nothing besides numbers, connectives and parentheses.

**Proof sketch.** The rule acts as the tokens of the formula, by
`Targeting.Definition.actsAs_formula`. A rule that comes to a truth value is well formed, so these
tokens are. -/
lemma onlyRepeats_of_outcomeFor (hcriteria : definition.criteria = [criterion])
    (hcondition : criterion.condition = .ok condition) (hcomparison : IsComparison condition.text)
    (hformula : definition.combination = .formula →
      Formula.OnlyConnects (definition.formula.getD ""))
    (hrule : definition.toRule = .ok defined) {engine : Engine} {snapshot : Snapshot}
    {audience : String} {b : Bool}
    (h : engine.outcomeFor snapshot audience defined.rule = .ok b) : definition.OnlyRepeats := by
  intro hcombination
  obtain ⟨lexemes, hlexemes, hparts⟩ := hformula hcombination
  have hfields : ∀ criterion ∈ definition.criteria, definition.Uses criterion →
      criterion.type = "FieldBased" →
      ∀ condition, criterion.condition = .ok condition → IsWellFormed condition.text := by
    rw [hcriteria]
    refine List.forall_mem_singleton.2 fun _ _ condition' hcondition' => ?_
    obtain rfl := Except.ok.inj (hcondition.symm.trans hcondition')
    exact hcomparison.isWellFormed
  have hacts := actsAs_formula hrule hcombination hfields hlexemes
    fun lexeme hmem => (hparts lexeme hmem).isApart
  exact ⟨lexemes, hlexemes, hparts,
    hacts.isWellFormed_iff.1 (Engine.isWellFormed_of_outcomeFor h)⟩

end Definition

end Targeting
