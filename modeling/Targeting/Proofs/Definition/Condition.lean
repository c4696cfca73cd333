import Targeting.Definition.Rule
import Targeting.Proofs.Evaluation.Outline

/-!
# What conditions say

The condition of a criterion is text, which is read again as part of a rule. The name of its
variable goes into this text as it is, the literal between quotes. So it depends on the name alone
whether the condition is read as the comparison that it was meant to be: the names of attributes
always are, the path of a field only if it can be written as one word, with the first point behind
its object.

## Main definitions

* `Targeting.Criterion.path` — the path that a criterion about a field speaks of.
* `Targeting.Condition.IsReadable` — a condition is read as it was meant.
* `Targeting.Criterion.ReadsBack` — the same of the condition of a criterion about a field.

## Main results

* `Targeting.Condition.spells_iff` — which conditions are read as three lexemes.
* `Targeting.Criterion.isComparison_of_type_ne` — conditions about attributes are comparisons.
* `Targeting.Criterion.isReadable` — which conditions are read as they were meant.
* `Targeting.Criterion.readsBack_iff` — which criteria about fields are read as they were meant.
-/

set_option autoImplicit false

namespace Targeting

/-! ## Criteria with a condition -/

namespace Criterion

variable {criterion : Criterion} {condition : Condition}

/-- The path of the field that a criterion about a field speaks of. -/
def path (criterion : Criterion) : FieldPath :=
  ⟨criterion.details.entityType,
    fieldPath criterion.details.entityType criterion.details.entityField⟩

/-- The operators that criteria name are comparisons. -/
lemma isComparison_of_comparison? {name : String} {op : Operator} (h : comparison? name = some op) :
    op.isComparison = true := by
  unfold comparison? at h
  split at h <;> cases h <;> rfl

/-- The parts of a condition: an operator that compares, the terms of the criterion, and a text
without backslashes.

**Proof sketch.** By cases on the operator and on the terms of the criterion, each of which may be
refused. With both of them there is a condition unless the text has a backslash, and its parts are
the operator and the terms. -/
lemma condition_eq_ok_iff :
    criterion.condition = .ok condition ↔
      comparison? criterion.operator = some condition.op ∧
        criterion.terms = .ok (condition.subject, condition.literal) ∧
        '\\' ∉ condition.literal.toList := by
  unfold Criterion.condition
  cases comparison? criterion.operator with
  | none => simp
  | some op =>
    cases criterion.terms with
    | error fault => simp
    | ok terms =>
      obtain ⟨subject, literal⟩ := terms
      obtain ⟨subject', op', literal'⟩ := condition
      dsimp only
      split_ifs with hbackslash
      · simp only [false_iff]
        rintro ⟨-, hterms, hno⟩
        obtain ⟨-, rfl⟩ := Prod.mk.inj (Except.ok.inj hterms)
        exact hno hbackslash
      · constructor
        · intro h
          obtain ⟨rfl, rfl, rfl⟩ := Condition.mk.inj (Except.ok.inj h)
          exact ⟨rfl, rfl, hbackslash⟩
        · rintro ⟨hop, hterms, -⟩
          obtain rfl := Option.some.inj hop
          obtain ⟨rfl, rfl⟩ := Prod.mk.inj (Except.ok.inj hterms)
          rfl

/-- A condition compares. -/
lemma isComparison_op (h : criterion.condition = .ok condition) :
    condition.op.isComparison = true :=
  isComparison_of_comparison? (condition_eq_ok_iff.1 h).1

/-- A criterion about a field compares the field at its path, which has an object and a field. -/
lemma subject_of_type_eq (h : criterion.condition = .ok condition)
    (htype : criterion.type = "FieldBased") :
    condition.subject = .record criterion.path ∧ criterion.path.object ≠ "" ∧
      criterion.path.field ≠ "" := by
  have hterms := (condition_eq_ok_iff.1 h).2.1
  simp only [terms, htype] at hterms
  split_ifs at hterms with hempty
  obtain ⟨hsubject, -⟩ := Prod.mk.inj (Except.ok.inj hterms)
  simp only [Bool.or_eq_true, String.isEmpty_iff, not_or] at hempty
  exact ⟨hsubject.symm, hempty⟩

/-- A criterion that is not about a field compares an attribute. -/
lemma subject_of_type_ne (h : criterion.condition = .ok condition)
    (htype : criterion.type ≠ "FieldBased") : ∃ a : Attribute, condition.subject = .named a := by
  have hterms := (condition_eq_ok_iff.1 h).2.1
  unfold terms at hterms
  split at hterms
  · exact ⟨_, (Prod.mk.inj (Except.ok.inj hterms)).1.symm⟩
  · next heq => exact absurd heq htype
  · dsimp only at hterms
    split_ifs at hterms
    exact ⟨_, (Prod.mk.inj (Except.ok.inj hterms)).1.symm⟩
  · exact ⟨_, (Prod.mk.inj (Except.ok.inj hterms)).1.symm⟩
  · cases hterms

end Criterion

/-! ## Conditions as text -/

/-- The name of an attribute is a word. -/
lemma Attribute.isPlainWord_name (a : Attribute) : IsPlainWord a.name := by cases a <;> decide

namespace Condition

/-- A condition is read as three lexemes exactly when its variable can be written as one word. -/
theorem spells_iff {condition : Condition} (h : '\\' ∉ condition.literal.toList) :
    Spells condition.text.toList [.word condition.subject.name, .operator condition.op,
        .quoted condition.literal] ↔ IsPlainWord condition.subject.name := by
  have hblank : isBlankChar ' ' = true := by decide
  have hsource : condition.text.toList = condition.subject.name.toList ++ ' ' ::
      (condition.op.symbol.toList ++ ' ' :: ((quoteText condition.literal).toList ++ [])) := by
    simp [text]
  have hrest : Spells
      (' ' :: (condition.op.symbol.toList ++ ' ' :: ((quoteText condition.literal).toList ++ [])))
      [.operator condition.op, .quoted condition.literal] :=
    .blank hblank (.operator _ (.blank hblank (spells_quoteText h .nil)))
  rw [hsource, spells_word_iff (endsWord_blank _)]
  exact and_iff_left hrest

/-- A condition whose variable is one word is a single comparison. -/
lemma isComparison {condition : Condition} (hop : condition.op.isComparison = true)
    (hliteral : '\\' ∉ condition.literal.toList) (hword : IsPlainWord condition.subject.name) :
    IsComparison condition.text :=
  ⟨condition.op, .word condition.subject.name, .quoted condition.literal, hop, trivial, trivial,
    (spells_iff hliteral).2 hword⟩

end Condition

/-- A criterion that is not about a field compares a variable that is one word. -/
lemma Criterion.isPlainWord_of_type_ne {criterion : Criterion} {condition : Condition}
    (h : criterion.condition = .ok condition) (htype : criterion.type ≠ "FieldBased") :
    IsPlainWord condition.subject.name := by
  obtain ⟨a, hsubject⟩ := subject_of_type_ne h htype
  rw [hsubject]
  exact a.isPlainWord_name

/-- The condition of a criterion that is not about a field is a single comparison. -/
theorem Criterion.isComparison_of_type_ne {criterion : Criterion} {condition : Condition}
    (h : criterion.condition = .ok condition) (htype : criterion.type ≠ "FieldBased") :
    IsComparison condition.text :=
  Condition.isComparison (isComparison_op h) (condition_eq_ok_iff.1 h).2.2
    (isPlainWord_of_type_ne h htype)

/-- The condition of a criterion about a field is a single comparison if the path of the field is
one word. -/
lemma Criterion.isComparison_of_isPlainWord {criterion : Criterion} {condition : Condition}
    (h : criterion.condition = .ok condition) (htype : criterion.type = "FieldBased")
    (hword : IsPlainWord criterion.path.text) : IsComparison condition.text := by
  have hname : condition.subject.name = criterion.path.text := by
    rw [(subject_of_type_eq h htype).1]
    rfl
  exact Condition.isComparison (isComparison_op h) (condition_eq_ok_iff.1 h).2.2 (hname ▸ hword)

/-! ## Conditions that are read back -/

/-- The tokens of a condition, without columns. -/
def Condition.tokenValues (condition : Condition) : List Token :=
  [.variable condition.subject, .operator condition.op, .text condition.literal]

/-- Whether a condition is read as it was meant: its variable is one word, which is read as the
variable. -/
def Condition.IsReadable (snapshot : Snapshot) (condition : Condition) : Prop :=
  IsComparison condition.text ∧
    List.Forall₂ (fun lexeme value => Token.ofLexeme snapshot .lenient lexeme = .ok value)
      (lexemesIn condition.text) condition.tokenValues

/-- The condition of a criterion is read as it was meant unless it is about a field that has no
record or whose path cannot be written in a rule.

**Proof sketch.** It is enough that the subject is a plain word that is read as the variable. The
name of an attribute is one by itself. The path of a field is one by `hfield`, and the lenient
policy admits it, since its object has a record. -/
lemma Criterion.isReadable {criterion : Criterion} {condition : Condition}
    (h : criterion.condition = .ok condition) {snapshot : Snapshot}
    (hfield : criterion.type = "FieldBased" →
      criterion.path.IsPlain ∧ (snapshot.record? criterion.path.object).isSome = true) :
    condition.IsReadable snapshot := by
  obtain ⟨-, -, hliteral⟩ := condition_eq_ok_iff.1 h
  have hread : IsPlainWord condition.subject.name ∧
      Token.ofLexeme snapshot .lenient (.word condition.subject.name) =
        .ok (.variable condition.subject) := by
    by_cases htype : criterion.type = "FieldBased"
    · obtain ⟨hsubject, -, hne⟩ := subject_of_type_eq h htype
      obtain ⟨⟨hobject, hword⟩, hrecord⟩ := hfield htype
      obtain ⟨record, hsome⟩ := Option.isSome_iff_exists.1 hrecord
      have hadmits : Token.admits snapshot .lenient criterion.path = true := by
        simp [Token.admits, hsome]
      rw [hsubject]
      exact ⟨hword, Token.ofLexeme_eq_record_iff.2 ⟨rfl, hobject, hne, hadmits⟩⟩
    · obtain ⟨a, hsubject⟩ := subject_of_type_ne h htype
      rw [hsubject]
      exact ⟨a.isPlainWord_name, Token.ofWord_name a⟩
  obtain ⟨hword, htoken⟩ := hread
  refine ⟨Condition.isComparison (isComparison_op h) hliteral hword, ?_⟩
  rw [((Condition.spells_iff hliteral).2 hword).lexemesIn_eq]
  exact .cons htoken (.cons rfl (.cons rfl .nil))

/-- Whether the condition of a criterion about a field is read as it was meant: as the field at the
path of the criterion, the operator, and the literal. -/
def Criterion.ReadsBack (snapshot : Snapshot) (criterion : Criterion) : Prop :=
  ∃ condition tokens, criterion.condition = .ok condition ∧
    tokensOf snapshot .lenient condition.text = .ok tokens ∧
    tokens.map (·.value) =
      [.variable (.record criterion.path), .operator condition.op, .text condition.literal]

/-- **Which fields are read back.** Where there is a record of its object, a criterion about a field
is read as it was meant exactly when the path of the field can be written in a rule.

**Proof sketch.** The three tokens are those of three lexemes, of which the first is a word with the
characters of the path. -/
theorem Criterion.readsBack_iff {criterion : Criterion} {condition : Condition}
    (h : criterion.condition = .ok condition) (htype : criterion.type = "FieldBased")
    {snapshot : Snapshot} (hrecord : (snapshot.record? criterion.path.object).isSome = true) :
    criterion.ReadsBack snapshot ↔ criterion.path.IsPlain := by
  obtain ⟨hsubject, -, hfield⟩ := subject_of_type_eq h htype
  have hname : condition.subject.name = criterion.path.text := by rw [hsubject]; rfl
  have hspells := Condition.spells_iff (condition_eq_ok_iff.1 h).2.2
  rw [hname] at hspells
  constructor
  · rintro ⟨condition', tokens, h', htokens⟩
    obtain rfl := Except.ok.inj (h.symm.trans h')
    obtain ⟨lexemes, hlexemes, hvalues⟩ := exists_tokensOf_iff.1 ⟨tokens, htokens⟩
    obtain ⟨first, _, hfirst, hbehind, rfl⟩ := List.forall₂_cons_right_iff.1 hvalues
    obtain ⟨second, _, hsecond, hlast, rfl⟩ := List.forall₂_cons_right_iff.1 hbehind
    obtain ⟨third, _, hthird, hnone, rfl⟩ := List.forall₂_cons_right_iff.1 hlast
    obtain rfl := List.forall₂_nil_right_iff.1 hnone
    obtain ⟨rfl, hobject, -, -⟩ := Token.ofLexeme_eq_record_iff.1 hfirst
    obtain rfl := Token.ofLexeme_eq_operator_iff.1 hsecond
    obtain rfl := Token.ofLexeme_eq_text_iff.1 hthird
    exact ⟨hobject, hspells.1 hlexemes⟩
  · intro hplain
    have hread : condition.IsReadable snapshot := isReadable h fun _ => ⟨hplain, hrecord⟩
    obtain ⟨hcomparison, hvalues⟩ := hread
    have hspells := (hcomparison.hasTruth {} snapshot).1
    obtain ⟨tokens, htokens, hmap⟩ := exists_tokensOf_iff.2 ⟨_, hspells, hvalues⟩
    rw [Condition.tokenValues, hsubject] at hmap
    exact ⟨condition, tokens, h, htokens, hmap⟩

end Targeting
