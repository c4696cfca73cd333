import Targeting.Proofs.Evaluation.Outline

/-!
# Connectives between rules

Two rules that have programs are put together to a third one: each in parentheses, and a connective
between them. The text is cut into lexemes, checked and evaluated as a whole; it comes to what the
connective makes of what the two rules come to by themselves, and to nothing if one of them fails.
So the laws of truth values hold of rules, as far as their results go.

## Main definitions

* `Targeting.Operator.between` — the text of two rules with an operator between them.

## Main results

* `Targeting.Program.isOk_ofRule_iff` — a rule has a program exactly when it spells an outline whose
  words name something.
* `Targeting.Program.isOk_ofRule_between` — rules with programs make a rule with a program.
* `Targeting.Engine.toOption_outcome_between` — what this rule comes to.
* `Targeting.Engine.connectives_boolean` — the laws of connectives between rules.
-/

set_option autoImplicit false

namespace Targeting

/-! ## Rules with a program -/

/-- The lexeme that a token without a value comes from. -/
def Token.mark? : Token → Option Lexeme
  | operator op => some (.operator op)
  | opening => some .opening
  | closing => some .closing
  | text _ | truth _ | .variable _ => none

/-- A token without a value comes from no other lexeme: words and quoted texts are operands. -/
lemma Token.eq_of_mark? {snapshot : Snapshot} {policy : FieldPolicy} {lexeme mark : Lexeme}
    {token : Token} (hmark : token.mark? = some mark)
    (h : ofLexeme snapshot policy lexeme = .ok token) : lexeme = mark := by
  cases lexeme with
  | word w => rcases cases_of_ofWord h with ⟨b, rfl⟩ | ⟨v, rfl⟩ <;> cases hmark
  | quoted s =>
    obtain rfl := Except.ok.inj h
    cases hmark
  | operator | opening | closing =>
    obtain rfl := Except.ok.inj h
    exact Option.some.inj hmark

namespace Outline

variable {snapshot : Snapshot} {policy : FieldPolicy}

/-- The lexemes of an outline have the tokens of each expression that has the outline. -/
lemma Resolves.forall₂_ofLexeme {o : Outline} {e : Expression} (h : Resolves snapshot policy o e) :
    List.Forall₂ (fun lexeme value => Token.ofLexeme snapshot policy lexeme = .ok value) o.lexemes
      (e.tokens.map (·.value)) := by
  induction h with
  | word column hword => exact .cons hword .nil
  | quoted s column => exact .cons rfl .nil
  | group opening closing _ ih =>
    simp only [lexemes, Expression.tokens, List.map_cons, List.map_append]
    exact .cons rfl (List.rel_append ih (.cons rfl .nil))
  | binary op column _ _ ihl ihr =>
    simp only [lexemes, Expression.tokens, List.map_cons, List.map_append]
    exact List.rel_append ihl (.cons rfl ihr)

/-- Lexemes that have the tokens of an expression are those of an outline that it has.

**Proof sketch.** Induction on the expression. The lexemes are divided where its tokens are. -/
lemma exists_resolves (e : Expression) {lexemes : List Lexeme}
    (h : List.Forall₂ (fun lexeme value => Token.ofLexeme snapshot policy lexeme = .ok value)
      lexemes (e.tokens.map (·.value))) :
    ∃ o : Outline, Resolves snapshot policy o e ∧ o.lexemes = lexemes := by
  induction e generalizing lexemes with
  | atom a column =>
    obtain ⟨lexeme, _, hlexeme, hnil, rfl⟩ := List.forall₂_cons_right_iff.1 h
    obtain rfl := List.forall₂_nil_right_iff.1 hnil
    cases lexeme with
    | word w => exact ⟨.word w, .word column hlexeme, rfl⟩
    | quoted s =>
      cases a <;> cases hlexeme
      exact ⟨.quoted s, .quoted s column, rfl⟩
    | operator | opening | closing => cases a <;> cases hlexeme
  | group opening inner closing ih =>
    simp only [Expression.tokens, List.map_cons, List.map_append, List.map_nil] at h
    obtain ⟨first, _, hopening, hrest, rfl⟩ := List.forall₂_cons_right_iff.1 h
    obtain ⟨within, _, rfl, hwithin, hlast⟩ := exists_append_of_forall₂ hrest
    obtain ⟨last, _, hclosing, hnil, rfl⟩ := List.forall₂_cons_right_iff.1 hlast
    obtain rfl := List.forall₂_nil_right_iff.1 hnil
    -- only a parenthesis has the token of one
    obtain rfl := Token.eq_of_mark? rfl hopening
    obtain rfl := Token.eq_of_mark? rfl hclosing
    obtain ⟨o, ho, rfl⟩ := ih hwithin
    exact ⟨.group o, .group opening closing ho, rfl⟩
  | binary op column left right ihl ihr =>
    simp only [Expression.tokens, List.map_cons, List.map_append] at h
    obtain ⟨front, _, rfl, hfront, hbehind⟩ := exists_append_of_forall₂ h
    obtain ⟨middle, back, hoperator, hback, rfl⟩ := List.forall₂_cons_right_iff.1 hbehind
    obtain rfl := Token.eq_of_mark? rfl hoperator
    obtain ⟨l, hl, rfl⟩ := ihl hfront
    obtain ⟨r, hr, rfl⟩ := ihr hback
    exact ⟨.binary op l r, .binary op column hl hr, rfl⟩

end Outline

/-- **Programs and outlines.** A rule has a program exactly when it spells an outline that can stand
at the lowest level and whose words name something.

**Proof sketch.** A rule with a program has a tree, whose tokens are those of lexemes that the rule
spells. These lexemes are those of an outline that the tree resolves, which fits where the tree
does. Conversely the lexemes of an outline that resolves have tokens, and they pass the check, by
`Targeting.Outline.exists_program`. -/
theorem Program.isOk_ofRule_iff {snapshot : Snapshot} {policy : FieldPolicy} {rule : String} :
    (ofRule snapshot policy rule).isOk = true ↔ ∃ (o : Outline) (e : Expression),
      o.FitsAt 1 ∧ Spells rule.toList o.lexemes ∧ Outline.Resolves snapshot policy o e := by
  constructor
  · intro h
    rw [ofRule_eq_map] at h
    cases htree : Expression.ofRule snapshot policy rule with
    | error error => rw [htree] at h; cases h
    | ok tree =>
      obtain ⟨tokens, htokens, -, hderives⟩ := Expression.ofRule_eq_ok_iff.1 htree
      obtain ⟨rfl, hfits⟩ := hderives.fits
      obtain ⟨lexemes, hspells, hvalues⟩ := exists_tokensOf_iff.1 ⟨tree.tokens, htokens, rfl⟩
      obtain ⟨o, ho, rfl⟩ := Outline.exists_resolves tree hvalues
      exact ⟨o, tree, ho.fitsAt_iff.1 hfits, hspells, ho⟩
  · rintro ⟨o, e, -, hspells, he⟩
    obtain ⟨tokens, htokens, -⟩ := exists_tokensOf_iff.2 ⟨o.lexemes, hspells, he.forall₂_ofLexeme⟩
    obtain ⟨program, hprogram⟩ := o.exists_program hspells htokens
    rw [hprogram]
    rfl

/-! ## Rules put together -/

/-- The text of two rules, each in parentheses, with an operator between them. -/
def Operator.between (op : Operator) (left right : String) : String :=
  "(" ++ left ++ ") " ++ op.symbol ++ " (" ++ right ++ ")"

example : Operator.and.between "Role == 'x'" "true" = "(Role == 'x') && (true)" := by decide

/-- Parentheses around a text, in front of another one. -/
lemma Spells.group {text rest : List Char} {lexemes others : List Lexeme} (h : Spells text lexemes)
    (hrest : Spells rest others) :
    Spells ('(' :: (text ++ ')' :: rest)) (.opening :: (lexemes ++ .closing :: others)) := by
  have hends : EndsWord (')' :: rest) := by
    change breaksWord ')' = true
    decide
  exact .opening (h.append (.closing hrest) hends)

/-- Two rules with an operator between them spell their lexemes, in parentheses, and the
operator. -/
lemma Spells.between {left right : String} {lexemes others : List Lexeme} (op : Operator)
    (h : Spells left.toList lexemes) (hothers : Spells right.toList others) :
    Spells (op.between left right).toList
      (.opening :: (lexemes ++ .closing :: .operator op ::
        .opening :: (others ++ [.closing]))) := by
  have hblank : isBlankChar ' ' = true := by decide
  have htext : (op.between left right).toList =
      '(' :: (left.toList ++ ')' :: ' ' :: (op.symbol.toList ++
        ' ' :: '(' :: (right.toList ++ [')']))) := by
    simp [Operator.between]
  rw [htext]
  exact h.group (.blank hblank (.operator op (.blank hblank (hothers.group .nil))))

/-- Two rules that have programs, with an operator between them, are a rule that has one. -/
theorem Program.isOk_ofRule_between {snapshot : Snapshot} {policy : FieldPolicy}
    {left right : String} (op : Operator) (hleft : (ofRule snapshot policy left).isOk = true)
    (hright : (ofRule snapshot policy right).isOk = true) :
    (ofRule snapshot policy (op.between left right)).isOk = true := by
  obtain ⟨l, e, hl, hspells, he⟩ := isOk_ofRule_iff.1 hleft
  obtain ⟨r, e', hr, hspells', he'⟩ := isOk_ofRule_iff.1 hright
  apply isOk_ofRule_iff.2
  refine ⟨.binary op (.group l) (.group r), .binary op 0 (.group 0 e 0) (.group 0 e' 0),
    ⟨op.one_le_precedence, hl, hr⟩, ?_, .binary op 0 (.group 0 0 he) (.group 0 0 he')⟩
  simpa [Outline.lexemes] using hspells.between op hspells'

/-- Connectives commute, associate and keep what is the same on both sides. -/
lemma Operator.connect?_laws {op : Operator} {f : Bool → Bool → Bool} (h : op.connect? = some f) :
    (∀ x y, f x y = f y x) ∧ (∀ x y z, f (f x y) z = f x (f y z)) ∧ ∀ x, f x x = x := by
  cases op with
  | and | or =>
    obtain rfl := Option.some.inj h
    decide
  | _ => cases h

/-- Connectives distribute over each other and over themselves. -/
lemma Operator.connect?_distrib {op op' : Operator} {f f' : Bool → Bool → Bool}
    (h : op.connect? = some f) (h' : op'.connect? = some f') (x y z : Bool) :
    f x (f' y z) = f' (f x y) (f x z) := by
  cases op with
  | and | or =>
    cases op' with
    | and | or =>
      obtain rfl := Option.some.inj h
      obtain rfl := Option.some.inj h'
      revert x y z
      decide
    | _ => cases h'
  | _ => cases h

namespace Engine

variable {engine : Engine} {snapshot : Snapshot} {left right : String}

/-- A rule that has a program has the lexemes of an expression that comes to what the rule does. -/
lemma exists_hasTruth (h : (Program.ofRule snapshot engine.policy left).isOk = true) :
    ∃ lexemes, Spells left.toList lexemes ∧
      HasTruth (engine.scene snapshot (.root snapshot.audience)) 1 lexemes
        (engine.outcome snapshot left).toOption := by
  obtain ⟨o, -, hfits, hspells, -⟩ := Program.isOk_ofRule_iff.1 h
  refine ⟨o.lexemes, hspells, o, hfits, rfl, ?_⟩
  exact (engine.outcome_of_hasTruth snapshot hspells ⟨o, hfits, rfl, rfl⟩).symm

/-- Two rules with a connective between them come to what it makes of the results of both. -/
theorem toOption_outcome_between {op : Operator} {f : Bool → Bool → Bool}
    (hop : op.connect? = some f)
    (hleft : (Program.ofRule snapshot engine.policy left).isOk = true)
    (hright : (Program.ofRule snapshot engine.policy right).isOk = true) :
    (engine.outcome snapshot (op.between left right)).toOption =
      (engine.outcome snapshot left).toOption.bind fun x =>
        (engine.outcome snapshot right).toOption.map fun y => f x y := by
  obtain ⟨lexemes, hspells, htruth⟩ := exists_hasTruth hleft
  obtain ⟨others, hspells', htruth'⟩ := exists_hasTruth hright
  have hconnect := (htruth.group op.precedence).connect hop (htruth'.group (op.precedence + 1))
  refine engine.outcome_of_hasTruth snapshot ?_ (hconnect.mono op.one_le_precedence)
  simpa using hspells.between op hspells'

/-- Two rules with a connective between them have a result exactly when both have one. -/
lemma outcome_between_eq_ok_iff {op : Operator} {f : Bool → Bool → Bool}
    (hop : op.connect? = some f)
    (hleft : (Program.ofRule snapshot engine.policy left).isOk = true)
    (hright : (Program.ofRule snapshot engine.policy right).isOk = true) {result : Bool} :
    engine.outcome snapshot (op.between left right) = .ok result ↔
      ∃ x y, engine.outcome snapshot left = .ok x ∧ engine.outcome snapshot right = .ok y ∧
        result = f x y := by
  rw [← toOption_eq_some_iff, toOption_outcome_between hop hleft hright]
  cases engine.outcome snapshot left with
  | error error => simp [Except.toOption]
  | ok x =>
    cases engine.outcome snapshot right with
    | error error => simp [Except.toOption]
    | ok y =>
      constructor
      · intro h
        exact ⟨x, y, rfl, rfl, (Option.some.inj h).symm⟩
      · rintro ⟨_, _, ⟨⟩, ⟨⟩, rfl⟩
        rfl

/-- **Connectives between rules are those of truth values.** Of rules that have programs, two with a
connective between them have a result exactly when both have one, and it is what the connective
makes of the two. So far as results go, connectives commute, associate and distribute over each
other, and a rule connected with itself comes to what it comes to alone.

**Proof sketch.** A connective between rules with programs makes of their outcomes what it makes of
truth values, by `Targeting.Engine.toOption_outcome_between`. Each law is then one of the connective
on truth values that may be missing, by cases on the outcomes of the rules. -/
theorem connectives_boolean (engine : Engine) (snapshot : Snapshot) {a b c : String}
    (ha : (Program.ofRule snapshot engine.policy a).isOk = true)
    (hb : (Program.ofRule snapshot engine.policy b).isOk = true)
    (hc : (Program.ofRule snapshot engine.policy c).isOk = true) (op : Operator)
    (f : Bool → Bool → Bool) (hop : op.connect? = some f) :
    (∀ result, engine.outcome snapshot (op.between a b) = .ok result ↔
      ∃ x y, engine.outcome snapshot a = .ok x ∧ engine.outcome snapshot b = .ok y ∧
        result = f x y) ∧
    (engine.outcome snapshot (op.between a b)).toOption =
      (engine.outcome snapshot (op.between b a)).toOption ∧
    (engine.outcome snapshot (op.between (op.between a b) c)).toOption =
      (engine.outcome snapshot (op.between a (op.between b c))).toOption ∧
    (engine.outcome snapshot (op.between a a)).toOption = (engine.outcome snapshot a).toOption ∧
    ∀ op' f', Operator.connect? op' = some f' →
      (engine.outcome snapshot (op.between a (op'.between b c))).toOption =
        (engine.outcome snapshot (op'.between (op.between a b) (op.between a c))).toOption := by
  have hab := Program.isOk_ofRule_between op ha hb
  have hac := Program.isOk_ofRule_between op ha hc
  have hbc := Program.isOk_ofRule_between op hb hc
  obtain ⟨hcomm, hassoc, hidem⟩ := Operator.connect?_laws hop
  refine ⟨fun result => outcome_between_eq_ok_iff hop ha hb, ?_, ?_, ?_, fun op' f' hop' => ?_⟩
  · rw [toOption_outcome_between hop ha hb, toOption_outcome_between hop hb ha]
    cases (engine.outcome snapshot a).toOption <;> cases (engine.outcome snapshot b).toOption <;>
      simp [hcomm]
  · rw [toOption_outcome_between hop hab hc, toOption_outcome_between hop ha hb,
      toOption_outcome_between hop ha hbc, toOption_outcome_between hop hb hc]
    cases (engine.outcome snapshot a).toOption <;> cases (engine.outcome snapshot b).toOption <;>
      simp [Function.comp_def, hassoc]
  · rw [toOption_outcome_between hop ha ha]
    cases (engine.outcome snapshot a).toOption <;> simp [hidem]
  · have hbc' := Program.isOk_ofRule_between op' hb hc
    rw [toOption_outcome_between hop ha hbc', toOption_outcome_between hop' hb hc,
      toOption_outcome_between hop' hab hac, toOption_outcome_between hop ha hb,
      toOption_outcome_between hop ha hc]
    have hdistrib := Operator.connect?_distrib hop hop'
    cases (engine.outcome snapshot a).toOption <;> cases (engine.outcome snapshot b).toOption <;>
      simp [Function.comp_def, hdistrib]

/-- A reference, a text that spells a truth value, and a set, which is no condition: the first two
have a result together, and nothing has one together with the third.

**Proof sketch.** The programs of the three rules and what each of them comes to by itself are
computed. What they come to together is the theorem, for the first two and for the last two. -/
theorem connectives_boolean_mixed :
    let snapshot : Snapshot :=
      { domain := "TRUE", permission := .ofList ["p"], rules := .ofList [("m", "'a' == 'a'")] }
    (∀ rule ∈ ["Audience == 'm'", "Domain", "Permission"],
        (Program.ofRule snapshot .lenient rule).isOk = true) ∧
      Engine.outcome {} snapshot "(Audience == 'm') && (Domain)" = .ok true ∧
      (Engine.outcome {} snapshot "((Audience == 'm') && (Domain)) && (Permission)").toOption =
        (Engine.outcome {} snapshot "(Audience == 'm') && ((Domain) && (Permission))").toOption ∧
      ∀ result, Engine.outcome {} snapshot "(Domain) && (Permission)" ≠ .ok result := by
  intro snapshot
  have hprograms : ∀ rule ∈ ["Audience == 'm'", "Domain", "Permission"],
      (Program.ofRule snapshot .lenient rule).isOk = true := by
    unfold snapshot
    decide +kernel
  have hresults : Engine.outcome {} snapshot "Audience == 'm'" = .ok true ∧
      Engine.outcome {} snapshot "Domain" = .ok true ∧
      (Engine.outcome {} snapshot "Permission").toOption = none := by
    unfold snapshot
    decide +kernel
  obtain ⟨hreference, htext, hset⟩ := hresults
  have ha := hprograms "Audience == 'm'" (by simp)
  have hb := hprograms "Domain" (by simp)
  have hc := hprograms "Permission" (by simp)
  obtain ⟨hboth, -, hassoc, -⟩ := connectives_boolean {} snapshot ha hb hc .and (· && ·) rfl
  obtain ⟨hfails, -⟩ := connectives_boolean {} snapshot hb hc ha .and (· && ·) rfl
  refine ⟨hprograms, (hboth true).2 ⟨true, true, hreference, htext, rfl⟩, hassoc, ?_⟩
  intro result hresult
  obtain ⟨x, y, -, hy, -⟩ := (hfails result).1 hresult
  rw [hy] at hset
  cases hset

end Engine

end Targeting
