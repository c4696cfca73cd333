import Targeting.Proofs.Rule.Columns
import Targeting.Proofs.Rule.WellFormed
import Targeting.Proofs.Rule.Words
import Targeting.Rule.Program

/-!
# Comparisons turned round

A comparison in parentheses is written with its operands in the other order. If both are operands,
nothing else of the rule notices: the same tokens stand around it, up to their columns, the check
comes to the same, and in reverse Polish order the two operands are exchanged in front of their
operator.

## Main definitions

* `Targeting.Fault.SameKind`, `Targeting.RuleError.SameKind` — errors alike but for columns and the
  order in which operands are printed.
* `Targeting.Located.Varies` — lists with the same values but for some parts, at any columns.
* `Targeting.Atom.MayTurn` — operands that may be exchanged.
* `Targeting.Turned` — rules of which one has a comparison of the other turned round.

## Main results

* `Targeting.checkTokens_turned`, `Targeting.reversePolish_turned` — the check and the order of
  tokens with comparisons turned round.
* `Targeting.Turned.ofRule` — the programs of the two rules.
-/

set_option autoImplicit false

namespace Targeting

/-! ## Errors of one kind -/

/-- Whether two faults are of one kind: they are the same, or an operator does not apply to two
operands that are printed in one order and in the other. -/
inductive Fault.SameKind : Fault → Fault → Prop
  | refl (fault : Fault) : SameKind fault fault
  | turned (op : Operator) (left right : String) :
    SameKind (.unsupportedComparison op left right) (.unsupportedComparison op right left)

/-- Whether two errors are of one kind, wherever they are found. -/
def RuleError.SameKind (error error' : RuleError) : Prop := error.fault.SameKind error'.fault

/-- A fault is of its own kind at any two columns. -/
lemma RuleError.SameKind.columns (fault : Fault) (column column' : Nat) :
    SameKind ⟨fault, column⟩ ⟨fault, column'⟩ := .refl fault

/-! ## Lists that vary in parts -/

namespace Located

variable {α : Type} {R : List α → List α → Prop}

/-- Whether two lists have the same values at any columns, but for parts whose values are related.
-/
inductive Varies (R : List α → List α → Prop) : List (Located α) → List (Located α) → Prop
  | nil : Varies R [] []
  | cons (value : α) (column column' : Nat) {rest rest' : List (Located α)} :
    Varies R rest rest' → Varies R (⟨value, column⟩ :: rest) (⟨value, column'⟩ :: rest')
  | part {left right rest rest' : List (Located α)} :
    R (left.map (·.value)) (right.map (·.value)) → Varies R rest rest' →
      Varies R (left ++ rest) (right ++ rest')

/-- The first item of a list has the first value at some column. -/
lemma map_value_eq_cons_iff {items : List (Located α)} {value : α} {values : List α} :
    items.map (·.value) = value :: values ↔
      ∃ column rest, items = ⟨value, column⟩ :: rest ∧ rest.map (·.value) = values := by
  rw [List.map_eq_cons_iff]
  constructor
  · rintro ⟨⟨_, column⟩, rest, rfl, rfl, hrest⟩
    exact ⟨column, rest, rfl, hrest⟩
  · rintro ⟨column, rest, rfl, hrest⟩
    exact ⟨_, rest, rfl, rfl, hrest⟩

namespace Varies

/-- Lists with the same values vary in no part. -/
lemma of_values {items items' : List (Located α)}
    (h : items.map (·.value) = items'.map (·.value)) : Varies R items items' := by
  induction items generalizing items' with
  | nil =>
    obtain rfl := List.map_eq_nil_iff.1 h.symm
    exact .nil
  | cons item items ih =>
    obtain ⟨column, rest', rfl, hrest⟩ := map_value_eq_cons_iff.1 h.symm
    exact .cons item.value item.column column (ih hrest.symm)

/-- Lists one behind the other vary in the parts of both. -/
lemma append {items items' others others' : List (Located α)} (h : Varies R items items')
    (hothers : Varies R others others') : Varies R (items ++ others) (items' ++ others') := by
  induction h with
  | nil => exact hothers
  | cons value column column' _ ih => exact .cons value column column' ih
  | part hR _ ih =>
    rw [List.append_assoc, List.append_assoc]
    exact .part hR ih

end Varies

end Located

/-! ## Comparisons that may be turned round -/

namespace Atom

/-- Whether an operand is a variable. -/
def isVariable : Atom → Bool
  | .variable _ => true
  | _ => false

/-- Whether the operands of an operator may be exchanged: it is equality or inequality, or a
comparison of a variable and a literal. -/
def MayTurn (op : Operator) (a b : Atom) : Prop :=
  (op = .equal ∨ op = .notEqual) ∨ op.isComparison = true ∧ a.isVariable ≠ b.isVariable

instance (op : Operator) (a b : Atom) : Decidable (MayTurn op a b) :=
  inferInstanceAs (Decidable ((op = .equal ∨ op = .notEqual) ∨ _))

end Atom

/-- The tokens of a comparison in parentheses, and those of the comparison turned round. -/
inductive TurnedTokens : List Token → List Token → Prop
  | mk {op : Operator} {a b : Atom} (h : Atom.MayTurn op a b) :
    TurnedTokens [.opening, a.token, .operator op, b.token, .closing]
      [.opening, b.token, .operator op, a.token, .closing]

/-- The code of a comparison, and that of the comparison turned round. -/
inductive TurnedCode : List Token → List Token → Prop
  | mk {op : Operator} {a b : Atom} (h : Atom.MayTurn op a b) :
    TurnedCode [a.token, b.token, .operator op] [b.token, a.token, .operator op]

variable {tokens tokens' : List (Located Token)}

/-! ## The check -/

/-- Whether two tokens play the same part in a rule: they are the same, or both are operands. -/
def Token.SameRole (token token' : Token) : Prop :=
  token = token' ∨ ∃ a b : Atom, token = a.token ∧ token' = b.token

/-- Operands play the same part. -/
lemma Token.SameRole.atoms (a b : Atom) : a.token.SameRole b.token := .inr ⟨a, b, rfl, rfl⟩

/-- Tokens with comparisons turned round play the same parts. -/
lemma Located.Varies.sameRole (h : Located.Varies TurnedTokens tokens tokens') :
    List.Forall₂ (fun token token' => token.value.SameRole token'.value) tokens tokens' := by
  induction h with
  | nil => exact .nil
  | cons value column column' _ ih => exact .cons (.inl rfl) ih
  | @part left right _ _ hpart _ ih =>
    generalize hleft : left.map (·.value) = values, hright : right.map (·.value) = values' at hpart
    obtain ⟨h⟩ := hpart
    simp only [map_value_eq_cons_iff, List.map_eq_nil_iff] at hleft hright
    obtain ⟨_, _, rfl, _, _, rfl, _, _, rfl, _, _, rfl, _, _, rfl, rfl⟩ := hleft
    obtain ⟨_, _, rfl, _, _, rfl, _, _, rfl, _, _, rfl, _, _, rfl, rfl⟩ := hright
    exact .cons (.inl rfl) (.cons (.atoms _ _) (.cons (.inl rfl) (.cons (.atoms _ _)
      (.cons (.inl rfl) ih))))

/-- Whether the check of two rules stands at the same place, wherever their tokens are. -/
def Outlook.Alike (outlook outlook' : Outlook) : Prop :=
  outlook.opened.length = outlook'.opened.length ∧ outlook.complete = outlook'.complete

/-- The check of tokens that play the same part goes on alike.

**Proof sketch.** The two outlooks have equally many parentheses open and agree on whether an
operand has come. If both tokens are atoms, they are taken or refused by the latter alone. Otherwise
they are the same token, and only a closing parenthesis looks at what is open. -/
lemma Outlook.next_matches {outlook outlook' : Outlook} (h : outlook.Alike outlook')
    {token token' : Located Token} (htoken : token.value.SameRole token'.value) :
    Matches RuleError.SameKind Alike (outlook.next token) (outlook'.next token') := by
  obtain ⟨opened, complete, last⟩ := outlook
  obtain ⟨opened', complete', last'⟩ := outlook'
  obtain ⟨hlength, rfl⟩ : opened.length = opened'.length ∧ complete = complete' := h
  obtain ⟨value, column⟩ := token
  obtain ⟨value', column'⟩ := token'
  have hatoms : ∀ a b : Atom, Matches RuleError.SameKind Alike
      (next ⟨opened, complete, last⟩ ⟨a.token, column⟩)
      (next ⟨opened', complete, last'⟩ ⟨b.token, column'⟩) := by
    intro a b
    cases complete with
    | true => cases a <;> cases b <;> exact .error (.columns _ _ _)
    | false =>
      rw [next_atom, next_atom]
      exact .ok ⟨hlength, rfl⟩
  rcases htoken with rfl | ⟨a, b, rfl, rfl⟩
  · cases value with
    | text s => exact hatoms (.text s) (.text s)
    | truth b => exact hatoms (.truth b) (.truth b)
    | «variable» v => exact hatoms (.variable v) (.variable v)
    | operator op =>
      cases complete with
      | true => exact .ok ⟨hlength, rfl⟩
      | false => exact .error (.columns _ _ _)
    | opening =>
      cases complete with
      | true => exact .error (.columns _ _ _)
      | false => exact .ok ⟨congrArg (· + 1) hlength, rfl⟩
    | closing =>
      match opened, opened' with
      | [], [] => exact .error (.columns _ _ _)
      | _ :: _, _ :: _ =>
        cases complete with
        | true => exact .ok ⟨Nat.succ.inj hlength, rfl⟩
        | false => exact .error (.columns _ _ _)
  · exact hatoms a b

/-- The check of a rule ends alike. -/
lemma Outlook.finish_matches {outlook outlook' : Outlook} (h : outlook.Alike outlook') :
    Matches RuleError.SameKind Eq outlook.finish outlook'.finish := by
  obtain ⟨opened, complete, last⟩ := outlook
  obtain ⟨opened', complete', last'⟩ := outlook'
  obtain ⟨hlength, rfl⟩ : opened.length = opened'.length ∧ complete = complete' := h
  match opened, opened' with
  | [], [] =>
    cases complete with
    | true => exact .ok rfl
    | false => exact .error (.columns _ _ _)
  | _ :: _, _ :: _ => exact .error (.columns _ _ _)

/-- **The check of tokens with comparisons turned round** comes to the same, up to columns: it sees
the same part played by every token. -/
theorem checkTokens_turned (h : Located.Varies TurnedTokens tokens tokens') :
    Matches RuleError.SameKind Eq (checkTokens tokens) (checkTokens tokens') := by
  have hroles := h.sameRole
  have hempty : tokens.isEmpty = tokens'.isEmpty := by
    cases hroles <;> rfl
  rw [checkTokens, checkTokens, ← hempty]
  split_ifs
  · exact .error (.columns _ _ _)
  · have hstart : Outlook.Alike {} {} := ⟨rfl, rfl⟩
    refine (Matches.foldlM (fun h htoken => ?_) hroles hstart).bind fun _ _ h => ?_
    · exact Outlook.next_matches h htoken
    · exact Outlook.finish_matches h

/-! ## Reverse Polish order -/

/-- What related lists have in front, up to where a property ends that related items share, and what
they have behind. -/
lemma forall₂_takeWhile_dropWhile {α β : Type} {R : α → β → Prop} {p : α → Bool} {q : β → Bool}
    (hp : ∀ a b, R a b → p a = q b) {items : List α} {items' : List β}
    (h : List.Forall₂ R items items') :
    List.Forall₂ R (items.takeWhile p) (items'.takeWhile q) ∧
      List.Forall₂ R (items.dropWhile p) (items'.dropWhile q) := by
  induction h with
  | nil => exact ⟨.nil, .nil⟩
  | @cons a b _ _ hitem hrest ih =>
    rw [List.takeWhile_cons, List.takeWhile_cons, List.dropWhile_cons, List.dropWhile_cons,
      ← hp a b hitem]
    split_ifs
    · exact ⟨.cons hitem ih.1, ih.2⟩
    · exact ⟨.nil, .cons hitem hrest⟩

namespace Waiting

/-- Whether two waiting ones are the same but for the column. -/
inductive Alike : Waiting → Waiting → Prop
  | operator (op : Operator) (column column' : Nat) :
      Alike (.operator op column) (.operator op column')
  | opening : Alike .opening .opening

variable {waiting waiting' : List Waiting}

/-- The operators among those that wait come out at any columns. -/
lemma varies_filterMap {R : List Token → List Token → Prop}
    (h : List.Forall₂ Alike waiting waiting') :
    Located.Varies R (waiting.filterMap token?) (waiting'.filterMap token?) := by
  induction h with
  | nil => exact .nil
  | cons hfirst _ ih =>
    cases hfirst with
    | operator op column column' => exact .cons (.operator op) column column' ih
    | opening => exact ih

end Waiting

/-- A comparison in parentheses comes out as its operands and its operator, whatever waits. -/
lemma polishFrom_comparison (op : Operator) (a b : Atom) (opening i column j closing : Nat)
    (waiting : List Waiting) (rest : List (Located Token)) :
    polishFrom waiting (⟨.opening, opening⟩ :: ⟨a.token, i⟩ :: ⟨.operator op, column⟩ ::
        ⟨b.token, j⟩ :: ⟨.closing, closing⟩ :: rest) =
      ⟨a.token, i⟩ :: ⟨b.token, j⟩ :: ⟨.operator op, column⟩ :: polishFrom waiting rest := by
  cases a <;> cases b <;> rfl

/-- Tokens with comparisons turned round come out as code with comparisons turned round, whatever
waits on the stack.

**Proof sketch.** Induction on the parts that are turned round. Inside its parentheses a comparison
finds nothing on the stack that it would have to let go, and it leaves the stack as it was; so its
operands come out in the order in which they are written, and its operator behind them. -/
lemma polishFrom_turned (h : Located.Varies TurnedTokens tokens tokens')
    {waiting waiting' : List Waiting} (hwaiting : List.Forall₂ Waiting.Alike waiting waiting') :
    Located.Varies TurnedCode (polishFrom waiting tokens) (polishFrom waiting' tokens') := by
  induction h generalizing waiting waiting' with
  | nil => exact Waiting.varies_filterMap hwaiting
  | cons value column column' _ ih =>
    cases value with
    | text s => exact .cons (.text s) column column' (ih hwaiting)
    | truth b => exact .cons (.truth b) column column' (ih hwaiting)
    | «variable» v => exact .cons (.variable v) column column' (ih hwaiting)
    | opening => exact ih (.cons .opening hwaiting)
    | closing =>
      -- which tokens come out depends on the kind of what waits, and that is the same on both sides
      have hshared : ∀ w w' : Waiting, w.Alike w' → w.isOperator = w'.isOperator := by
        rintro _ _ (_ | _) <;> rfl
      obtain ⟨htake, hdrop⟩ := forall₂_takeWhile_dropWhile hshared hwaiting
      exact (Waiting.varies_filterMap htake).append (ih (List.forall₂_drop 1 hdrop))
    | operator op =>
      have hshared : ∀ w w' : Waiting, w.Alike w' → w.bindsAtLeast op = w'.bindsAtLeast op := by
        rintro _ _ (_ | _) <;> rfl
      obtain ⟨htake, hdrop⟩ := forall₂_takeWhile_dropWhile hshared hwaiting
      exact (Waiting.varies_filterMap htake).append (ih (.cons (.operator op column column') hdrop))
  | @part left right rest rest' hpart _ ih =>
    generalize hleft : left.map (·.value) = values, hright : right.map (·.value) = values' at hpart
    -- a part is a parenthesis, a comparison and a parenthesis, of which the operator comes out last
    obtain @⟨op, a, b, h⟩ := hpart
    simp only [Located.map_value_eq_cons_iff, List.map_eq_nil_iff] at hleft hright
    obtain ⟨_, _, rfl, i, _, rfl, column, _, rfl, j, _, rfl, _, _, rfl, rfl⟩ := hleft
    obtain ⟨_, _, rfl, i', _, rfl, column', _, rfl, j', _, rfl, _, _, rfl, rfl⟩ := hright
    simp only [List.cons_append, List.nil_append, polishFrom_comparison]
    have hcode : TurnedCode
        ([⟨a.token, i⟩, ⟨b.token, j⟩, ⟨.operator op, column⟩].map Located.value)
        ([⟨b.token, i'⟩, ⟨a.token, j'⟩, ⟨.operator op, column'⟩].map Located.value) := .mk h
    exact .part hcode (ih hwaiting)

/-- **The order of tokens with comparisons turned round.** In reverse Polish order they are code
with the operands of these comparisons exchanged. -/
theorem reversePolish_turned (h : Located.Varies TurnedTokens tokens tokens') :
    Located.Varies TurnedCode (reversePolish tokens) (reversePolish tokens') :=
  polishFrom_turned h .nil

/-! ## Texts -/

/-- A text has the same lexemes, or an error of the same kind, at any two columns. -/
lemma lexemesFrom_columns {column column' : Nat} (h : 1 ≤ column) (h' : 1 ≤ column')
    (text : List Char) :
    Matches RuleError.SameKind
      (fun lexemes lexemes' => lexemes.map (·.value) = lexemes'.map (·.value))
      (lexemesFrom (.plain .nothing) column text) (lexemesFrom (.plain .nothing) column' text) := by
  have hmoved : ∀ column : Nat, 1 ≤ column → lexemesFrom (.plain .nothing) column text =
      ((lexemesFrom (.plain .nothing) 1 text).map (List.map (·.moved (column - 1)))).mapError
        (·.moved (column - 1)) := by
    intro column h
    have heq := lexemesFrom_moved (column - 1) (.plain .nothing) (Nat.le_refl 1) text
    rwa [Nat.add_sub_cancel' h] at heq
  rw [hmoved column h, hmoved column' h']
  cases lexemesFrom (.plain .nothing) 1 text with
  | error error => exact .error (.refl error.fault)
  | ok lexemes =>
    refine .ok ?_
    rw [List.map_map, List.map_map]
    rfl

/-- A text with a fault of its own has it in front of any parenthesis.

**Proof sketch.** Induction on the text. An error that is met on the way is met all the same. At the
end of the text a word is complete, while an escape or the first half of an operator is not
completed by a parenthesis either. Only a quoted text would go on, and that it does not is assumed.
-/
lemma exists_lexemesFrom_error {state : ReadState} {column : Nat} {text : List Char}
    {error : RuleError} (h : lexemesFrom state column text = .error error)
    (hfault : error.fault ≠ .unterminatedLiteral) :
    ∃ error', ∀ rest, lexemesFrom state column (text ++ '(' :: rest) = .error error' := by
  induction text generalizing state column with
  | nil =>
    cases state with
    | plain pending =>
      cases pending with
      | quoted start chars => exact absurd (Except.error.inj h ▸ rfl) hfault
      | nothing | word => cases h
    | escaping pending => exact ⟨⟨.invalidEscape, column⟩, fun _ => rfl⟩
    | operator first start =>
      have hnone : Operator.ofChars? first '(' = none := by
        refine Option.eq_none_iff_forall_ne_some.2 fun op hop => ?_
        have hchars : op.chars.2 = '(' := congrArg Prod.snd (Operator.ofChars?_eq_some_iff.1 hop)
        cases op <;> exact absurd hchars (by decide)
      refine ⟨⟨.unknownOperator first, start⟩, fun rest => ?_⟩
      rw [List.nil_append, lexemesFrom, ReadState.read, hnone]
      rfl
  | cons c text ih =>
    rw [lexemesFrom, bind_eq_error_iff] at h
    rcases h with hread | ⟨⟨lexemes, next⟩, hread, h⟩
    · refine ⟨error, fun rest => ?_⟩
      rw [List.cons_append, lexemesFrom, hread]
      rfl
    · have hnext : lexemesFrom next (column + 1) text = .error error := by
        rcases bind_eq_error_iff.1 h with hnext | ⟨_, _, hok⟩
        · exact hnext
        · cases hok
      obtain ⟨error', herror'⟩ := ih hnext
      refine ⟨error', fun rest => ?_⟩
      rw [List.cons_append, lexemesFrom_cons hread, herror' rest]
      rfl

/-- Two texts, the second one in parentheses, are read up to the closing one whatever follows.

**Proof sketch.** A parenthesis ends a word, so `Targeting.lexemesFrom_append` reads the items of
each text in front of one, and the parenthesis itself is one lexeme. What follows is read from a
fresh state, at the column behind the closing one. -/
lemma exists_lexemesFrom_group {before inner : List Char} {lexemes others : List Lexeme}
    (hbefore : Spells before lexemes) (hinner : Spells inner others) :
    ∃ located column, 1 ≤ column ∧
      located.map (·.value) = lexemes ++ (.opening :: others ++ [.closing]) ∧
      ∀ after, lexemesFrom (.plain .nothing) 1 (before ++ '(' :: (inner ++ ')' :: after)) =
        (lexemesFrom (.plain .nothing) column after).map (located ++ ·) := by
  obtain ⟨front, hfront, rfl⟩ := hbefore
  obtain ⟨items, hitems, rfl⟩ := hinner
  have hopening : ∀ rest, EndsWord ('(' :: rest) := fun _ => (by decide : breaksWord '(' = true)
  have hclosing : ∀ rest, EndsWord (')' :: rest) := fun _ => (by decide : breaksWord ')' = true)
  have hopen : ∀ column rest, lexemesFrom (.plain .nothing) column ('(' :: rest) =
      (lexemesFrom (.plain .nothing) (column + 1) rest).map ([⟨.opening, column⟩] ++ ·) :=
    fun _ rest => lexemesFrom_cons rfl rest
  have hclose : ∀ column rest, lexemesFrom (.plain .nothing) column (')' :: rest) =
      (lexemesFrom (.plain .nothing) (column + 1) rest).map ([⟨.closing, column⟩] ++ ·) :=
    fun _ rest => lexemesFrom_cons rfl rest
  -- the columns of the two parentheses
  let opened := 1 + before.length
  let closed := opened + 1 + inner.length
  refine ⟨Item.locate 1 front ++ (⟨.opening, opened⟩ :: Item.locate (opened + 1) items ++
    [⟨.closing, closed⟩]), closed + 1, by omega, ?_, fun after => ?_⟩
  · simp only [List.map_append, List.map_cons, Item.map_value_locate, List.map_nil]
  · rw [lexemesFrom_append hfront (hopening _), hopen, lexemesFrom_append hitems (hclosing _),
      hclose]
    cases lexemesFrom (.plain .nothing) (closed + 1) after with
    | error error => rfl
    | ok lexemes => simp [Except.map, opened, closed]

/-! ## Rules -/

/-- Whether a text has certain tokens, wherever they stand. -/
def HasTokens (snapshot : Snapshot) (policy : FieldPolicy) (text : String) (values : List Token) :
    Prop :=
  ∃ tokens, tokensOf snapshot policy text = .ok tokens ∧ tokens.map (·.value) = values

instance (snapshot : Snapshot) (policy : FieldPolicy) (text : String) (values : List Token) :
    Decidable (HasTokens snapshot policy text values) :=
  decidable_of_iff ((tokensOf snapshot policy text).toOption.map (List.map (·.value)) = some values)
    (by simp only [HasTokens, Option.map_eq_some_iff, toOption_eq_some_iff])

/-- Whether two rules are the same, or one comparison in parentheses is turned round in the second
one. It may be written in any way in both; in front of it no quoted text is left open, in which the
parenthesis would be a character like any other. -/
inductive Turned (snapshot : Snapshot) (policy : FieldPolicy) : String → String → Prop
  | refl (rule : String) : Turned snapshot policy rule rule
  | turn {before inner inner' after : String} {op : Operator} {a b : Atom}
    (h : Atom.MayTurn op a b)
    (hbefore : ∀ column, lexemesOf before ≠ .error ⟨.unterminatedLiteral, column⟩)
    (hinner : HasTokens snapshot policy inner [a.token, .operator op, b.token])
    (hinner' : HasTokens snapshot policy inner' [b.token, .operator op, a.token]) :
    Turned snapshot policy (before ++ "(" ++ inner ++ ")" ++ after)
      (before ++ "(" ++ inner' ++ ")" ++ after)

section Rules

variable {snapshot : Snapshot} {policy : FieldPolicy}

/-- Whether lexemes are those of a comparison in parentheses and of the comparison turned round. -/
def TurnedLexemes (snapshot : Snapshot) (policy : FieldPolicy) (left right : List Lexeme) : Prop :=
  ∃ values values', TurnedTokens values values' ∧
    List.Forall₂ (fun lexeme value => Token.ofLexeme snapshot policy lexeme = .ok value)
      left values ∧
    List.Forall₂ (fun lexeme value => Token.ofLexeme snapshot policy lexeme = .ok value)
      right values'

/-- Lexemes that are tokens one by one are so together. -/
lemma Token.exists_ofLexemes {located : List (Located Lexeme)} {values : List Token}
    (h : List.Forall₂ (fun lexeme value => ofLexeme snapshot policy lexeme = .ok value)
      (located.map (·.value)) values) :
    ∃ tokens, ofLexemes snapshot policy located = .ok tokens ∧ tokens.map (·.value) = values := by
  induction located generalizing values with
  | nil =>
    cases h
    exact ⟨[], rfl, rfl⟩
  | cons lexeme located ih =>
    obtain ⟨value, others, hvalue, hothers, rfl⟩ := List.forall₂_cons_left_iff.1 h
    obtain ⟨tokens, htokens, rfl⟩ := ih hothers
    refine ⟨⟨value, lexeme.column⟩ :: tokens, ?_, rfl⟩
    rw [ofLexemes, hvalue, htokens]
    rfl

/-- The tokens of lexemes with comparisons turned round have them turned round. -/
lemma Token.ofLexemes_turned {located located' : List (Located Lexeme)}
    (h : Located.Varies (TurnedLexemes snapshot policy) located located') :
    Matches RuleError.SameKind (Located.Varies TurnedTokens)
      (ofLexemes snapshot policy located) (ofLexemes snapshot policy located') := by
  induction h with
  | nil => exact .ok .nil
  | cons value column column' _ ih =>
    rw [ofLexemes, ofLexemes]
    cases ofLexeme snapshot policy value with
    | error fault => exact .error (.columns fault column column')
    | ok token => exact ih.bind fun _ _ hrest => .ok (.cons token column column' hrest)
  | part hpart _ ih =>
    obtain ⟨values, values', hturned, hleft, hright⟩ := hpart
    obtain ⟨tokens, htokens, rfl⟩ := exists_ofLexemes hleft
    obtain ⟨tokens', htokens', rfl⟩ := exists_ofLexemes hright
    rw [ofLexemes_append, ofLexemes_append, htokens, htokens']
    exact ih.map fun _ _ hrest => .part hturned hrest

namespace Turned

variable {rule rule' : String}

/-- The lexemes of two rules of which one has a comparison of the other turned round.

**Proof sketch.** Where the text in front of the parenthesis has an error of its own, both rules
have the same one, by `Targeting.exists_lexemesFrom_error`. Otherwise both are read up to the
closing parenthesis, by `Targeting.exists_lexemesFrom_group`, and the text behind it gives the same
lexemes up to their columns, by `Targeting.lexemesFrom_columns`. The groups between the parentheses
have the turned tokens. -/
lemma lexemesOf (h : Turned snapshot policy rule rule') :
    Matches RuleError.SameKind (Located.Varies (TurnedLexemes snapshot policy))
      (lexemesOf rule) (lexemesOf rule') := by
  cases h with
  | refl =>
    cases Targeting.lexemesOf rule with
    | ok lexemes => exact .ok (.of_values rfl)
    | error error => exact .error (.refl error.fault)
  | @turn before inner inner' after op a b h hbefore hinner hinner' =>
    have htext : ∀ inner : String, (before ++ "(" ++ inner ++ ")" ++ after).toList =
        before.toList ++ '(' :: (inner.toList ++ ')' :: after.toList) := by
      intro inner
      simp
    rw [Targeting.lexemesOf, Targeting.lexemesOf, htext, htext]
    cases hread : Targeting.lexemesOf before with
    | error error =>
      have hfault : error.fault ≠ .unterminatedLiteral := by
        intro hfault
        exact hbefore error.column (by rw [hread, ← hfault])
      obtain ⟨error', herror'⟩ := exists_lexemesFrom_error hread hfault
      rw [herror', herror']
      exact .error (.refl _)
    | ok lexemes =>
      have hfront : Spells before.toList (lexemes.map (·.value)) :=
        spells_iff.2 ⟨lexemes, hread, rfl⟩
      obtain ⟨left, hleft, hvalues⟩ := exists_tokensOf_iff.1 hinner
      obtain ⟨right, hright, hvalues'⟩ := exists_tokensOf_iff.1 hinner'
      obtain ⟨located, column, hcolumn, hlocated, hafter⟩ := exists_lexemesFrom_group hfront hleft
      obtain ⟨located', column', hcolumn', hlocated', hafter'⟩ :=
        exists_lexemesFrom_group hfront hright
      rw [hafter, hafter']
      refine (lexemesFrom_columns hcolumn hcolumn' after.toList).map fun _ _ hsame => ?_
      refine .append ?_ (.of_values hsame)
      -- the lexemes up to the parenthesis are the same, and the group is turned round
      obtain ⟨before, group, rfl, hbefore, hgroup⟩ := List.map_eq_append_iff.1 hlocated
      obtain ⟨before', group', rfl, hbefore', hgroup'⟩ := List.map_eq_append_iff.1 hlocated'
      refine .append (.of_values (hbefore.trans hbefore'.symm)) ?_
      have hpart : TurnedLexemes snapshot policy (group.map (·.value)) (group'.map (·.value)) := by
        rw [hgroup, hgroup']
        exact ⟨_, _, .mk h, .cons rfl (List.rel_append hvalues (.cons rfl .nil)),
          .cons rfl (List.rel_append hvalues' (.cons rfl .nil))⟩
      have hvaries := Located.Varies.part hpart .nil
      rwa [List.append_nil, List.append_nil] at hvaries

/-- **The programs of two rules** of which one has a comparison of the other turned round: both are
there, and differ in the order of the two operands in front of the operator, or both rules have
errors of the same kind. -/
theorem ofRule (h : Turned snapshot policy rule rule') :
    Matches RuleError.SameKind
      (fun program program' => Located.Varies TurnedCode program.code program'.code)
      (Program.ofRule snapshot policy rule) (Program.ofRule snapshot policy rule') := by
  unfold Program.ofRule tokensOf
  refine (h.lexemesOf.bind fun _ _ => Token.ofLexemes_turned).bind fun tokens tokens' htokens => ?_
  refine (checkTokens_turned htokens).bind fun _ _ _ => ?_
  exact .ok (reversePolish_turned htokens)

end Turned

end Rules

end Targeting
