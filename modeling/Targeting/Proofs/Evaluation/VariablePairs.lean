import Targeting.Proofs.Definition.Negation

/-!
# Comparisons between two variables

The operators for the start and for the end of a text are not symmetric: it matters which operand is
the subject. Before a comparison, operands are put in order by one question only, whether a variable
stands on the right; it does also where both operands are variables. So of two variables the right
one becomes the subject, and the comparison says whether the text of the right variable starts or
ends with that of the left one. With a quoted text on the right, the left one is the subject.

The two ways round agree only where the texts are the same, or neither starts (ends) with the other.
A set on the left becomes what the subject is compared with, which is refused.

## Main definitions

* `Targeting.Operator.affix?` — what the two operators ask of texts.
* `Targeting.Value.single?` — the text of a value that is no set.
* `Targeting.Value.meets` — whether a value, as the subject, starts or ends with a text.

## Main results

* `Targeting.Engine.outcome_of_lexemes` — a rule that is an operator between two operands.
* `Targeting.Value.meets_comm_iff` — where two single values may change places.
* `Targeting.Engine.outcome_of_variables` — two variables, and a quoted text in place of the second.
-/

set_option autoImplicit false

namespace Targeting

/-! ## The start and the end of a text -/

/-- What an operator asks of a text and of what it may start or end with. -/
def Operator.affix? : Operator → Option (String → String → Bool)
  | startsWith => some Targeting.startsWith
  | endsWith => some Targeting.endsWith
  | _ => none

/-- The operators for the start and the end are comparisons. -/
lemma Operator.isComparison_of_affix? {op : Operator} {test : String → String → Bool}
    (h : op.affix? = some test) : op.isComparison = true := by
  cases op <;> first | rfl | cases h

/-- The text of a text that counts as a truth value if it spells one. -/
def textForm (s : String) : String := (Scalar.ofText s).toText

example : textForm "TRUE" = "true" := by decide

/-- The word of a truth value stands for itself. -/
lemma textForm_truthText (b : Bool) : textForm (truthText b) = truthText b := by
  cases b <;> decide

/-- Texts that start with each other are the same, and so are texts that end with each other. -/
lemma Operator.affix?_antisymm {op : Operator} {test : String → String → Bool}
    (h : op.affix? = some test) {s t : String} (hst : test s t = true) (hts : test t s = true) :
    s = t := by
  apply String.toList_inj.1
  cases op with
  | startsWith =>
    obtain rfl := Option.some.inj h
    have hst := List.isPrefixOf_iff_prefix.1 hst
    have hts := List.isPrefixOf_iff_prefix.1 hts
    exact hts.eq_of_length (Nat.le_antisymm hts.length_le hst.length_le)
  | endsWith =>
    obtain rfl := Option.some.inj h
    have hst := List.isSuffixOf_iff_suffix.1 hst
    have hts := List.isSuffixOf_iff_suffix.1 hts
    exact hts.eq_of_length (Nat.le_antisymm hts.length_le hst.length_le)
  | _ => cases h

namespace Value

/-- The text of a single value; a set has none. -/
def single? : Value → Option String
  | text s => some s
  | truth b => some (truthText b)
  | set _ => none

/-- Whether a value starts or ends with a text: a single value by its text form, a set by one of its
items that is not empty. -/
def meets (test : String → String → Bool) (subject : Value) (s : String) : Bool :=
  match subject with
  | text t => test (textForm t) (textForm s)
  | truth b => test (truthText b) (textForm s)
  | set items => items.toList.any fun item => !item.isEmpty && test item s

/-- Whether a single value starts or ends with a text. -/
lemma meets_of_single? {subject : Value} {t : String} (h : subject.single? = some t)
    (test : String → String → Bool) (s : String) :
    subject.meets test s = test (textForm t) (textForm s) := by
  cases subject with
  | text t' =>
    obtain rfl := Option.some.inj h
    rfl
  | truth b =>
    obtain rfl := Option.some.inj h
    rw [textForm_truthText]
    rfl
  | set items => cases h

section Compare

variable {op : Operator} {test : String → String → Bool}

/-- A single value is compared with another one by their texts.

**Proof sketch.** A single value is a scalar with the same text form, and on scalars the three
comparisons are tests of their text forms. -/
lemma compare?_of_single? (hop : op.affix? = some test) {subject other : Value} {s t : String}
    (hsubject : subject.single? = some s) (hother : other.single? = some t) :
    compare? op subject other = some (test (textForm s) (textForm t)) := by
  have hscalar : ∀ (value : Value) (s : String), value.single? = some s →
      ∃ a : Scalar, value.scalar? = some a ∧ a.toText = textForm s := by
    intro value s hs
    cases value with
    | text s' =>
      obtain rfl := Option.some.inj hs
      exact ⟨_, rfl, rfl⟩
    | truth b =>
      obtain rfl := Option.some.inj hs
      exact ⟨_, rfl, (textForm_truthText b).symm⟩
    | set items => cases hs
  have hcompare : ∀ a b : Scalar, Scalar.compare? op a b = some (test a.toText b.toText) := by
    intro a b
    cases op <;> first | cases hop; rfl | cases hop
  obtain ⟨a, ha, hs⟩ := hscalar subject s hsubject
  obtain ⟨b, hb, ht⟩ := hscalar other t hother
  rw [compare?_of_scalar? ha hb, ← hs, ← ht]
  exact hcompare a b

/-- Every value is compared with a text. -/
lemma compare?_text (hop : op.affix? = some test) (subject : Value) (s : String) :
    compare? op subject (text s) = some (subject.meets test s) := by
  cases hsingle : subject.single? with
  | some t => rw [compare?_of_single? hop hsingle rfl, meets_of_single? hsingle]
  | none =>
    cases subject with
    | set items => cases op <;> first | cases hop; rfl | cases hop
    | text | truth => cases hsingle

/-- A single value is not compared with a set in this way. -/
lemma compare?_set (hop : op.affix? = some test) {subject : Value} {s : String}
    (h : subject.single? = some s) (items : NameSet) :
    compare? op subject (set items) = none := by
  cases subject with
  | text t => cases op <;> first | rfl | cases hop
  | truth b => cases op <;> rfl
  | set other => cases h

/-- **Changing places.** Two single values may change places exactly where their texts are the same,
or neither starts (ends) with the other. -/
theorem meets_comm_iff (hop : op.affix? = some test) {a b : Value} {s t : String}
    (ha : a.single? = some t) (hb : b.single? = some s) :
    b.meets test t = a.meets test s ↔ textForm t = textForm s ∨
      test (textForm t) (textForm s) = false ∧ test (textForm s) (textForm t) = false := by
  rw [meets_of_single? ha, meets_of_single? hb]
  constructor
  · intro heq
    cases hst : test (textForm s) (textForm t) with
    | true => exact .inl (Operator.affix?_antisymm hop (heq.symm.trans hst) hst)
    | false => exact .inr ⟨heq.symm.trans hst, rfl⟩
  · rintro (heq | ⟨hts, hst⟩)
    · rw [heq]
    · rw [hts, hst]

end Compare

end Value

/-! ## Rules with one operator -/

/-- Operands that have a value are those of literals and of variables with one. -/
lemma Operand.ofVariable_of_value? {snapshot : Snapshot} {v : Variable} {value : Value}
    (h : (ofVariable snapshot v).value? = some value) :
    ofVariable snapshot v = .variable v value := by
  cases v with
  | named a => cases a <;> cases h <;> rfl
  | record path =>
    cases h
    rfl

/-- What an operator yields on two operands of which the first one, when they are in order, is not
the audience attribute. -/
lemma Surroundings.operate_of_compare? (around : Surroundings) {op : Operator}
    (hop : op.isComparison = true) {left right subject other : Operand} {a b : Value}
    (horient : Operand.orient left right = (subject, other)) (ha : subject.value? = some a)
    (hb : other.value? = some b) (column : Nat) :
    (around.operate op left right column).map (·.1) =
      match Value.compare? op a b with
      | some result => .ok result
      | none => .error ⟨.unsupportedComparison op left.render right.render, column⟩ := by
  have hcombine : around.combine? op subject other column =
      (Value.compare? op a b).map fun result => .ok (result, []) := by
    have haudience : subject ≠ .audience := by
      rintro rfl
      cases ha
    have hcompare := around.compare?_of_ne_audience op haudience other column
    rw [ha, hb] at hcompare
    cases op <;> first | exact hcompare | cases hop
  simp only [operate, horient, hcombine]
  cases Value.compare? op a b <;> rfl

/-- A tree with one operator comes to what the operator does. -/
lemma Expression.outcome_of_atoms (around : Surroundings) (op : Operator) (l r : Atom)
    (i column j : Nat) :
    ((binary op column (atom l i) (atom r j)).outcome around).map (·.1) =
      (around.operate op (l.operand around.snapshot) (r.operand around.snapshot) column).map
        (·.1) := by
  simp only [outcome, evaluate, bind, Except.bind]
  cases around.operate op (l.operand around.snapshot) (r.operand around.snapshot) column <;> rfl

namespace Engine

/-- A rule whose lexemes are an operator between two operands comes to what the operator does. -/
theorem outcome_of_lexemes (engine : Engine) (snapshot : Snapshot) {rule : String} {op : Operator}
    {left right : Lexeme} {l r : Atom} {i column j : Nat}
    (hrule : lexemesOf rule = .ok [⟨left, i⟩, ⟨.operator op, column⟩, ⟨right, j⟩])
    (hleft : Token.ofLexeme snapshot engine.policy left = .ok l.token)
    (hright : Token.ofLexeme snapshot engine.policy right = .ok r.token) :
    engine.outcome snapshot rule =
      ((engine.aroundTree snapshot false (.root snapshot.audience)).operate op
        (l.operand snapshot) (r.operand snapshot) column).map (·.1) := by
  have htokens : tokensOf snapshot engine.policy rule =
      .ok (Expression.binary op column (.atom l i) (.atom r j)).tokens := by
    rw [tokensOf, hrule]
    simp only [bind, Except.bind, Token.ofLexemes, hleft, hright]
    rfl
  have htree : Expression.ofRule snapshot engine.policy rule =
      .ok (.binary op column (.atom l i) (.atom r j)) := by
    refine Expression.ofRule_eq_ok_iff.2 ⟨_, htokens, Expression.checkTokens_tokens _, ?_⟩
    exact Expression.FitsAt.derives ⟨op.one_le_precedence, trivial, trivial⟩
  rw [outcome, outcomeFor, outcomeOn_eq_bind, htree]
  exact Expression.outcome_of_atoms (engine.aroundTree snapshot false (.root snapshot.audience)) ..

/-- **Two variables.** Let a rule ask whether one variable starts (ends) with another one that is no
set. With the text of the second variable between quotes instead, the rule says whether the first
one starts (ends) with this text. With both variables, it says whether the second one starts (ends)
with the first, and refuses a set in the first place. So both come to the same exactly where the
first variable is no set and the two texts are the same, or neither starts (ends) with the other.

**Proof sketch.** Of two variables the right one is compared with the left one, so the outcome is
the comparison of `b` with `a`. If `a` is no set, it is the test of their texts in this order; if it
is a set, the comparison does not apply. With a literal the variable stays in front. The two
outcomes agree where the test is symmetric at the two texts, by `Targeting.Value.meets_comm_iff`. -/
theorem outcome_of_variables (engine : Engine) (snapshot : Snapshot) {rule left right : String}
    {op : Operator} {test : String → String → Bool} (hop : op.affix? = some test)
    {i column j : Nat}
    (hrule : lexemesOf rule = .ok [⟨.word left, i⟩, ⟨.operator op, column⟩, ⟨.word right, j⟩])
    {x y : Variable} (hx : Token.ofWord snapshot engine.policy left = .ok (.variable x))
    (hy : Token.ofWord snapshot engine.policy right = .ok (.variable y)) {a b : Value}
    (ha : (Operand.ofVariable snapshot x).value? = some a)
    (hb : (Operand.ofVariable snapshot y).value? = some b) {s : String}
    (hs : b.single? = some s) :
    (∀ literal i column j,
      lexemesOf literal = .ok [⟨.word left, i⟩, ⟨.operator op, column⟩, ⟨.quoted s, j⟩] →
        engine.outcome snapshot literal = .ok (a.meets test s)) ∧
    (∀ t, a.single? = some t → engine.outcome snapshot rule = .ok (b.meets test t)) ∧
    (a.single? = none → engine.outcome snapshot rule =
      .error ⟨.unsupportedComparison op (.join [x.name, "=", a.render])
        (.join [y.name, "=", b.render]), column⟩) ∧
    (engine.outcome snapshot rule = .ok (a.meets test s) ↔ ∃ t, a.single? = some t ∧
      (textForm t = textForm s ∨
        test (textForm t) (textForm s) = false ∧ test (textForm s) (textForm t) = false)) := by
  have hcomparison := Operator.isComparison_of_affix? hop
  have hvalues : engine.outcome snapshot rule =
      match Value.compare? op b a with
      | some result => .ok result
      | none => .error ⟨.unsupportedComparison op (Operand.variable x a).render
          (Operand.variable y b).render, column⟩ := by
    have houtcome := engine.outcome_of_lexemes snapshot (l := .variable x) (r := .variable y)
      hrule hx hy
    rw [houtcome]
    simp only [Atom.operand, Operand.ofVariable_of_value? ha, Operand.ofVariable_of_value? hb]
    exact Surroundings.operate_of_compare? _ hcomparison rfl rfl rfl column
  have hswapped : ∀ t, a.single? = some t →
      engine.outcome snapshot rule = .ok (b.meets test t) := by
    intro t ht
    rw [hvalues, Value.compare?_of_single? hop hs ht, Value.meets_of_single? hs]
  have hrefused : a.single? = none → engine.outcome snapshot rule =
      .error ⟨.unsupportedComparison op (.join [x.name, "=", a.render])
        (.join [y.name, "=", b.render]), column⟩ := by
    intro hnone
    cases a with
    | text | truth => cases hnone
    | set items =>
      rw [hvalues, Value.compare?_set hop hs]
      simp [Operand.render, String.join]
  refine ⟨?_, hswapped, hrefused, ?_⟩
  · intro literal i column j hliteral
    have houtcome := engine.outcome_of_lexemes snapshot (l := .variable x) (r := .text s)
      hliteral hx rfl
    rw [houtcome]
    simp only [Atom.operand, Operand.ofVariable_of_value? ha]
    have horient := Operand.orient_text (.variable x a) s
    rw [Surroundings.operate_of_compare? _ hcomparison horient rfl rfl column,
      Value.compare?_text hop]
  · cases hsingle : a.single? with
    | none =>
      rw [hrefused hsingle]
      simp
    | some t =>
      rw [hswapped t hsingle, Except.ok.injEq, Value.meets_comm_iff hop hsingle hs]
      simp

/-- A text and a field with the same text form, which may change places.

**Proof sketch.** The lexemes of both rules, the two variables and the value of the second one are
computed. The outcomes are those of the theorem, since the text forms are the same. -/
theorem outcome_of_variables_alike :
    let snapshot : Snapshot :=
      { profile := "TRUE", data := .ofList [("Account", .ofList [("Active", .truth true)])] }
    let a : Value := .text "TRUE"
    lexemesOf "Profile =~ Account.Active" =
        .ok [⟨.word "Profile", 1⟩, ⟨.operator .startsWith, 9⟩, ⟨.word "Account.Active", 12⟩] ∧
      lexemesOf "Profile =~ 'true'" =
        .ok [⟨.word "Profile", 1⟩, ⟨.operator .startsWith, 9⟩, ⟨.quoted "true", 12⟩] ∧
      a.meets startsWith "true" = true ∧
      Engine.outcome {} snapshot "Profile =~ 'true'" = .ok (a.meets startsWith "true") ∧
      Engine.outcome {} snapshot "Profile =~ Account.Active" =
        .ok (a.meets startsWith "true") := by
  intro snapshot a
  have hrule : lexemesOf "Profile =~ Account.Active" =
      .ok [⟨.word "Profile", 1⟩, ⟨.operator .startsWith, 9⟩, ⟨.word "Account.Active", 12⟩] := by
    decide +kernel
  have hliteral : lexemesOf "Profile =~ 'true'" =
      .ok [⟨.word "Profile", 1⟩, ⟨.operator .startsWith, 9⟩, ⟨.quoted "true", 12⟩] := by
    decide +kernel
  have hx : Token.ofWord snapshot .lenient "Profile" = .ok (.variable (.named .profile)) := by
    unfold snapshot
    decide +kernel
  have hy : Token.ofWord snapshot .lenient "Account.Active" =
      .ok (.variable (.record ⟨"Account", "Active"⟩)) := by
    unfold snapshot
    decide +kernel
  have hb : (Operand.ofVariable snapshot (.record ⟨"Account", "Active"⟩)).value? =
      some (.truth true) := by
    unfold snapshot
    decide +kernel
  obtain ⟨hquoted, -, -, hagree⟩ :=
    outcome_of_variables {} snapshot (a := a) (s := "true") rfl hrule hx hy rfl hb rfl
  exact ⟨hrule, hliteral, by decide, hquoted _ _ _ _ hliteral,
    hagree.2 ⟨"TRUE", rfl, .inl (by decide)⟩⟩

/-- A role that starts with the profile, and a set with an item that starts with the domain: the
text between quotes is found, the variable is not. -/
theorem outcome_of_variables_differs :
    let snapshot : Snapshot := { profile := "Admin", role := "Administrator", domain := "de",
                                 location := .ofList ["de-by"] }
    Engine.outcome {} snapshot "Role =~ 'Admin'" = .ok true ∧
      Engine.outcome {} snapshot "Role =~ Profile" = .ok false ∧
      Engine.outcome {} snapshot "Location =~ 'de'" = .ok true ∧
      Engine.outcome {} snapshot "Location =~ Domain" = .error
        ⟨.unsupportedComparison .startsWith "Location=\x7bde-by\x7d" "Domain='de'", 10⟩ := by
  intro snapshot
  unfold snapshot
  decide +kernel

end Engine

end Targeting
