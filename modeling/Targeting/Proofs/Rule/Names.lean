import Targeting.Proofs.Evaluation.Dependence

/-!
# The names that a program lists

A program lists the names of its variables. A variable has been read from a word of the rule, which
was cut at its first point if it is about a field; its name puts the two parts together again and is
the word, whatever other points and quotes are in it. So the names of a program are the words of its
rule, except for those that are truth values.

## Main definitions

* `Targeting.Lexeme.name?` — the name that a lexeme is, if it is one.

## Main results

* `Targeting.Token.filterMap_variableName?` — the variables of tokens have the names of the lexemes,
  in their order.
* `Targeting.Program.mem_names_ofRule_iff` — the names of a program are the words of its rule.
-/

set_option autoImplicit false

namespace Targeting

/-- A text spells no truth value exactly when in small letters it is none of the two words. -/
lemma readTruth?_eq_none_iff {text : String} :
    readTruth? text = none ↔ lowerCase text ≠ "true" ∧ lowerCase text ≠ "false" := by
  unfold readTruth?
  split_ifs with htrue hfalse
  · simp [htrue]
  · simp [hfalse]
  · exact iff_of_true rfl ⟨htrue, hfalse⟩

/-- The name that a lexeme is: a word that spells no truth value. -/
def Lexeme.name? : Lexeme → Option String
  | word text => if readTruth? text = none then some text else none
  | _ => none

/-- The names among lexemes are the words that spell no truth value. -/
lemma Lexeme.name?_eq_some_iff {lexeme : Lexeme} {name : String} :
    lexeme.name? = some name ↔ lexeme = .word name ∧ readTruth? name = none := by
  cases lexeme with
  | word text =>
    simp only [name?, Option.ite_none_right_eq_some, Option.some.injEq, Lexeme.word.injEq]
    constructor
    · rintro ⟨htruth, rfl⟩
      exact ⟨rfl, htruth⟩
    · rintro ⟨rfl, htruth⟩
      exact ⟨htruth, rfl⟩
  | quoted | operator | opening | closing => simp [name?]

namespace Token

variable {snapshot : Snapshot} {policy : FieldPolicy} {lexemes : List (Located Lexeme)}
  {tokens : List (Located Token)}

/-- A word is the token of a truth value exactly when it spells this value. -/
lemma ofWord_eq_truth_iff {word : String} {b : Bool} :
    ofWord snapshot policy word = .ok (.truth b) ↔ readTruth? word = some b := by
  cases htruth : readTruth? word with
  | some b' => simp [ofWord, htruth]
  | none =>
    refine iff_of_false (fun h => ?_) (by simp)
    unfold ofWord at h
    rw [htruth] at h
    split at h
    · contradiction
    · cases h
    · split_ifs at h
      cases h
    · cases h

/-- A lexeme is a variable exactly when it is a name, and then the variable has this name. -/
lemma variableName?_of_ofLexeme {lexeme : Lexeme} {token : Token}
    (h : ofLexeme snapshot policy lexeme = .ok token) : token.variableName? = lexeme.name? := by
  cases lexeme with
  | quoted | operator | opening | closing =>
    obtain rfl := Except.ok.inj h
    rfl
  | word word =>
    change ofWord snapshot policy word = .ok token at h
    rcases cases_of_ofWord h with ⟨b, rfl⟩ | ⟨v, rfl⟩
    · simp [Lexeme.name?, ofWord_eq_truth_iff.1 h, variableName?]
    · have htruth : readTruth? word = none := by
        refine Option.eq_none_iff_forall_ne_some.2 fun b htruth => ?_
        cases h.symm.trans (ofWord_eq_truth_iff.2 htruth)
      simp [Lexeme.name?, htruth, variableName?, (name_of_ofWord h).1]

/-- The variables of tokens have the names of the lexemes, in their order. -/
theorem filterMap_variableName? (h : ofLexemes snapshot policy lexemes = .ok tokens) :
    tokens.filterMap (·.value.variableName?) = lexemes.filterMap (·.value.name?) := by
  rw [ofLexemes_eq_ok_iff] at h
  induction h with
  | nil => rfl
  | cons hfirst _ ih =>
    rw [List.filterMap_cons, List.filterMap_cons, variableName?_of_ofLexeme hfirst.1, ih]

end Token

/-- **The names of a program are the words of its rule.** Where a rule has a program, the program
lists exactly the words that stand outside of quotes in the rule, except for `true` and `false` in
any case. Each of them names a variable, whose name is the word.

**Proof sketch.** A program that is compiled has the tokens of the rule, and its names are those of
the variables among them. A lexeme becomes a variable exactly if it is a word that spells no truth
value, by `Targeting.readTruth?_eq_none_iff`, and the variable has this word as its name. -/
theorem Program.mem_names_ofRule_iff {snapshot : Snapshot} {policy : FieldPolicy} {rule : String}
    {program : Program} (h : ofRule snapshot policy rule = .ok program) :
    ∃ lexemes, lexemesOf rule = .ok lexemes ∧
      (∀ word, word ∈ program.names ↔
        (∃ column, ⟨.word word, column⟩ ∈ lexemes) ∧
          lowerCase word ≠ "true" ∧ lowerCase word ≠ "false") ∧
      ∀ word ∈ program.names, ∃ v : Variable,
        Token.ofWord snapshot policy word = .ok (.variable v) ∧ v.name = word := by
  obtain ⟨tokens, htokens, hprogram⟩ := bind_eq_ok_iff.1 h
  obtain ⟨-, -, hprogram⟩ := bind_eq_ok_iff.1 hprogram
  obtain rfl := Except.ok.inj hprogram
  obtain ⟨lexemes, hlexemes, htokens⟩ := bind_eq_ok_iff.1 htokens
  refine ⟨lexemes, hlexemes, fun word => ?_, fun word hword => ?_⟩
  · rw [NameSet.mem_ofList, Token.filterMap_variableName? htokens, List.mem_filterMap,
      ← readTruth?_eq_none_iff]
    simp only [Lexeme.name?_eq_some_iff]
    constructor
    · rintro ⟨⟨_, column⟩, hmem, rfl, htruth⟩
      exact ⟨⟨column, hmem⟩, htruth⟩
    · rintro ⟨⟨column, hmem⟩, htruth⟩
      exact ⟨_, hmem, rfl, htruth⟩
  · obtain ⟨⟨token, column⟩, hmem, hname⟩ := List.mem_filterMap.1 (NameSet.mem_ofList.1 hword)
    cases token with
    | «variable» v =>
      obtain rfl := Option.some.inj hname
      exact ⟨v, Token.ofWord_name_of_mem htokens hmem, rfl⟩
    | text | truth | operator | opening | closing => cases hname

/-- A field with two more points and a quote in its path, a truth value in capitals, and a quoted
text that would be a name without its quotes. -/
theorem Program.mem_names_ofRule_iff_points :
    let snapshot : Snapshot := { data := .ofList [("Account", ∅)] }
    let rule := "Account.O\\'Brien..Name == 'Role' || Domain != TRUE"
    ∃ program, ofRule snapshot .lenient rule = .ok program ∧
      program.names.toList = ["Account.O'Brien..Name", "Domain"] ∧
      ∃ v : Variable, Token.ofWord snapshot .lenient "Account.O'Brien..Name" =
        .ok (.variable v) ∧ v.name = "Account.O'Brien..Name" := by
  intro snapshot rule
  have hnames : (ofRule snapshot .lenient rule).map (·.names.toList) =
      .ok ["Account.O'Brien..Name", "Domain"] := by
    rw [← toOption_eq_some_iff]
    unfold snapshot rule
    decide +kernel
  obtain ⟨program, hprogram, hlist⟩ := map_eq_ok_iff.1 hnames
  obtain ⟨-, -, -, hvariable⟩ := mem_names_ofRule_iff hprogram
  refine ⟨program, hprogram, hlist, hvariable _ ?_⟩
  rw [← NameSet.mem_toList, hlist]
  exact List.mem_cons_self ..

end Targeting
