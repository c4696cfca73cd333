import Targeting.Proofs.Rule.FaultOrigin
import Targeting.Proofs.Rule.Words

/-!
# The faults of the check

Tokens that are no expression have faults of their own: nothing else that is read of a rule has one
of these. In particular, an expression is found to be empty only where a rule has no tokens, and
such a rule is blank.

## Main definitions

* `Targeting.Fault.isOfCheck` — the faults of tokens that are no expression.

## Main results

* `Targeting.Program.exists_tokens_of_isOfCheck` — the faults of the check are found by the check.
* `Targeting.isBlank_iff_lexemesOf` — a rule is blank exactly when it has no lexemes.
* `Targeting.isBlank_of_checkTokens` — a rule that is found to be empty is blank.
-/

set_option autoImplicit false

namespace Targeting

/-- Whether a fault is one of tokens that are no expression. -/
def Fault.isOfCheck : Fault → Bool
  | emptyExpression | expectedOperator | unexpectedOperator | expectedOperand => true
  | unmatchedClosing | unclosedOpening => true
  | unterminatedLiteral | invalidEscape | unexpectedQuote | unknownOperator _ => false
  | unknownVariable _ | missingOperand _ | nonBooleanResult _ => false
  | unsupportedComparison _ _ _ | unknownAudience _ | cyclicReference _ | depthExceeded _ => false

/-- The faults of the check are found while a rule is read. -/
lemma Fault.origin_of_isOfCheck {fault : Fault} (h : fault.isOfCheck = true) :
    fault.origin = .reading := by
  cases fault <;> first | rfl | cases h

namespace ReadState

/-- A character has no fault of the check. -/
lemma read_fails (state : ReadState) (column : Nat) (c : Char) :
    FailsOnlyWith (·.fault.isOfCheck = false) (state.read column c) := by
  intro error h
  cases state with
  | plain pending =>
    simp only [read, readPlain] at h
    split_ifs at h
    cases pending <;> cases h
    rfl
  | escaping pending =>
    simp only [read] at h
    split_ifs at h
    cases h
    rfl
  | operator first start =>
    simp only [read] at h
    split at h <;> cases h
    rfl

/-- The end of a rule has no fault of the check. -/
lemma finish_fails (state : ReadState) (column : Nat) :
    FailsOnlyWith (·.fault.isOfCheck = false) (state.finish column) := by
  intro error h
  unfold finish at h
  split at h <;> cases h <;> rfl

end ReadState

/-- No text has a fault of the check while it is cut into lexemes. -/
lemma lexemesFrom_fails (state : ReadState) (column : Nat) (text : List Char) :
    FailsOnlyWith (·.fault.isOfCheck = false) (lexemesFrom state column text) := by
  induction text generalizing state column with
  | nil => exact state.finish_fails column
  | cons c rest ih =>
    refine (state.read_fails column c).bind ?_
    rintro ⟨lexemes, next⟩
    exact (ih next (column + 1)).bind fun others => .ok (lexemes ++ others)

/-- No word has a fault of the check.

**Proof sketch.** Induction on the lexemes. Only a word can fail, and its fault says that the
variable is unknown. -/
lemma Token.ofLexemes_fails (snapshot : Snapshot) (policy : FieldPolicy)
    (lexemes : List (Located Lexeme)) :
    FailsOnlyWith (·.fault.isOfCheck = false) (ofLexemes snapshot policy lexemes) := by
  have hlexeme : ∀ lexeme,
      FailsOnlyWith (·.isOfCheck = false) (ofLexeme snapshot policy lexeme) := by
    intro lexeme fault h
    cases lexeme with
    | word word =>
      simp only [ofLexeme, ofWord] at h
      split at h
      · cases h
      · cases h
      · split_ifs at h
        cases h
        rfl
      · cases h
        rfl
    | quoted | operator | opening | closing => cases h
  induction lexemes with
  | nil => exact .ok _
  | cons lexeme rest ih =>
    unfold ofLexemes
    split
    · next fault hfault => exact .error (hlexeme lexeme.value fault hfault)
    · exact ih.bind fun tokens => .ok _

/-- A fault of the check comes from the check of the rule's tokens. -/
lemma Program.exists_tokens_of_isOfCheck {snapshot : Snapshot} {policy : FieldPolicy}
    {rule : String} {error : RuleError} (h : ofRule snapshot policy rule = .error error)
    (hcheck : error.fault.isOfCheck = true) :
    ∃ tokens, tokensOf snapshot policy rule = .ok tokens ∧ checkTokens tokens = .error error := by
  rcases bind_eq_error_iff.1 h with htokens | ⟨tokens, htokens, h⟩
  · -- neither the lexemes nor the tokens of a rule are at fault in this way
    rcases bind_eq_error_iff.1 htokens with hlexemes | ⟨lexemes, -, hwords⟩
    · rw [lexemesFrom_fails _ _ _ error hlexemes] at hcheck
      cases hcheck
    · rw [Token.ofLexemes_fails _ _ _ error hwords] at hcheck
      cases hcheck
  · rcases bind_eq_error_iff.1 h with hfails | ⟨_, -, hpure⟩
    · exact ⟨tokens, htokens, hfails⟩
    · cases hpure

namespace Outlook

/-- The check of a token does not find the expression empty. -/
lemma next_ne_empty (outlook : Outlook) (token : Located Token) :
    FailsOnlyWith (·.fault ≠ .emptyExpression) (outlook.next token) := by
  intro error h
  grind [next]

/-- The end of the check does not find the expression empty. -/
lemma finish_ne_empty (outlook : Outlook) :
    FailsOnlyWith (·.fault ≠ .emptyExpression) outlook.finish := by
  intro error h
  grind [finish]

end Outlook

/-- The check finds an expression empty only if there are no tokens. -/
lemma eq_nil_of_checkTokens {tokens : List (Located Token)} {column : Nat}
    (h : checkTokens tokens = .error ⟨.emptyExpression, column⟩) : tokens = [] := by
  by_contra hne
  rw [checkTokens, if_neg (by simpa using hne)] at h
  have hfails : FailsOnlyWith (·.fault ≠ .emptyExpression)
      (tokens.foldlM Outlook.next {} >>= Outlook.finish) :=
    (FailsOnlyWith.foldlM Outlook.next_ne_empty tokens {}).bind Outlook.finish_ne_empty
  exact hfails _ h rfl

/-! ## Blank rules -/

/-- A text is blank exactly when it has no lexemes: what is written there but blanks is a piece of a
lexeme.

**Proof sketch.** Each character of the rule is in an item of its decomposition. All items but
blanks have a lexeme, so without lexemes they are all blanks. -/
theorem isBlank_iff_lexemesOf {rule : String} : isBlank rule = true ↔ lexemesOf rule = .ok [] := by
  refine ⟨lexemesOf_of_isBlank, fun h => ?_⟩
  obtain ⟨items, hitems, hnone⟩ := lexemesOf_eq_ok_iff.1 h
  have hlexemes : items.filterMap Item.lexeme? = [] := by
    rw [← Item.map_value_locate 1 items, ← hnone]
    rfl
  apply List.all_eq_true.2
  intro c hc
  rw [← hitems.source, List.mem_flatMap] at hc
  obtain ⟨item, hitem, hc⟩ := hc
  have hwell := hitems.wellFormed item hitem
  have hlexeme := List.filterMap_eq_nil_iff.1 hlexemes item hitem
  cases item with
  | blank b =>
    obtain rfl := List.mem_singleton.1 hc
    exact hwell
  | opening | closing | operator | word | quoted => cases hlexeme

/-- A rule whose tokens are found to be no expression for want of any is blank. -/
lemma isBlank_of_checkTokens {snapshot : Snapshot} {policy : FieldPolicy} {rule : String}
    {tokens : List (Located Token)} {column : Nat}
    (htokens : tokensOf snapshot policy rule = .ok tokens)
    (h : checkTokens tokens = .error ⟨.emptyExpression, column⟩) : isBlank rule = true := by
  obtain rfl := eq_nil_of_checkTokens h
  obtain ⟨lexemes, hlexemes, hwords⟩ := bind_eq_ok_iff.1 htokens
  obtain rfl := List.forall₂_nil_right_iff.1 (Token.ofLexemes_eq_ok_iff.1 hwords)
  exact isBlank_iff_lexemesOf.2 hlexemes

end Targeting
