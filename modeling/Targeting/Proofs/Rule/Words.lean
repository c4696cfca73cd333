import Mathlib.Data.List.Forall2
import Targeting.Proofs.Rule.Concatenation
import Targeting.Proofs.Rule.Expression
import Targeting.Rule.Token

/-!
# Words and what they name

A word of a rule is a truth value, an attribute or the path of a field, which has a point in it and
so is neither of the others. The tokens of a rule are found lexeme by lexeme.

## Main definitions

* `Targeting.FieldPath.IsPlain` — the paths that can be written in a rule.
* `Targeting.Token.atom?` — the operand that a token is.

## Main results

* `Targeting.FieldPath.ofWord?_eq_some_iff` — which words spell a path.
* `Targeting.Token.ofLexeme_eq_record_iff` — which lexemes are fields.
* `Targeting.exists_tokensOf_iff` — the tokens of a rule without columns are those of its lexemes.
-/

set_option autoImplicit false

namespace Targeting

/-! ## Paths -/

namespace FieldPath

/-- Whether a path can be written in a rule: it is one word, and its object has no point in it. -/
def IsPlain (path : FieldPath) : Prop := '.' ∉ path.object.toList ∧ IsPlainWord path.text

instance : DecidablePred IsPlain := fun path =>
  inferInstanceAs (Decidable ('.' ∉ path.object.toList ∧ IsPlainWord path.text))

/-- A word spells a path exactly when it is the text of the path, whose object has no point and
whose field is not empty.

**Proof sketch.** A word is divided at its first point, so what is in front has none, and what is
behind is not empty. Conversely, in the text of such a path the first point is the one between the
object and the field, and dividing there gives back both. -/
theorem ofWord?_eq_some_iff {word : String} {path : FieldPath} :
    ofWord? word = some path ↔
      path.text = word ∧ '.' ∉ path.object.toList ∧ path.field ≠ "" := by
  constructor
  · intro h
    refine ⟨text_of_ofWord? h, ?_⟩
    simp only [ofWord?] at h
    split at h
    · next point c field eq =>
      obtain rfl := Option.some.inj h
      refine ⟨fun hmem => ?_, by simp⟩
      rw [String.toList_ofList] at hmem
      have hpoint := List.all_eq_true.1 List.all_takeWhile _ hmem
      exact absurd rfl (of_decide_eq_true hpoint)
    · cases h
  · rintro ⟨rfl, hobject, hfield⟩
    obtain ⟨object, field⟩ := path
    have hne : field.toList ≠ [] := by simpa using hfield
    obtain ⟨c, chars, hchars⟩ := List.exists_cons_of_ne_nil hne
    have hall : ∀ x ∈ object.toList, decide (x ≠ '.') = true := by
      intro x hx
      exact decide_eq_true fun heq => hobject (heq ▸ hx)
    -- the object has no point, so the first point of the text stands behind it
    have htext : (FieldPath.text ⟨object, field⟩).toList = object.toList ++ '.' :: c :: chars := by
      simp [text, hchars]
    have htake : (object.toList ++ '.' :: c :: chars).takeWhile (· ≠ '.') = object.toList := by
      rw [List.takeWhile_append_of_pos hall]
      simp
    have hdrop : (object.toList ++ '.' :: c :: chars).dropWhile (· ≠ '.') = '.' :: c :: chars := by
      rw [List.dropWhile_append_of_pos hall]
      simp
    simp only [ofWord?, htext, htake, hdrop]
    rw [← hchars, String.ofList_toList, String.ofList_toList]

end FieldPath

/-! ## Words with a point -/

/-- A word with a point in it is no truth value. -/
lemma readTruth?_eq_none_of_mem {word : String} (h : '.' ∈ word.toList) :
    readTruth? word = none := by
  have hlower : '.' ∈ (lowerCase word).toList := by
    rw [toList_lowerCase]
    exact List.mem_map.2 ⟨'.', h, rfl⟩
  unfold readTruth?
  split_ifs with htrue hfalse
  · rw [htrue] at hlower
    exact absurd hlower (by decide)
  · rw [hfalse] at hlower
    exact absurd hlower (by decide)
  · rfl

/-- A word with a point in it is no attribute. -/
lemma Attribute.ofName?_eq_none_of_mem {word : String} (h : '.' ∈ word.toList) :
    ofName? word = none := by
  refine List.find?_eq_none.2 fun a _ => ?_
  simp only [decide_eq_true_eq]
  rintro rfl
  cases a <;> exact absurd h (by decide)

/-! ## Tokens of words -/

/-- The operand that a token stands for, if it is a literal or a variable. -/
def Token.atom? : Token → Option Atom
  | text s => some (.text s)
  | truth b => some (.truth b)
  | .variable v => some (.variable v)
  | _ => none

/-- An operand is read back from its token. -/
@[simp] lemma Atom.atom?_token (a : Atom) : a.token.atom? = some a := by cases a <;> rfl

namespace Token

variable {snapshot : Snapshot} {policy : FieldPolicy} {path : FieldPath}

/-- A word that names something is a truth value or a variable. -/
lemma cases_of_ofWord {word : String} {token : Token}
    (h : ofWord snapshot policy word = .ok token) :
    (∃ b, token = .truth b) ∨ ∃ v, token = .variable v := by
  unfold ofWord at h
  split at h
  · exact .inl ⟨_, (Except.ok.inj h).symm⟩
  · exact .inr ⟨_, (Except.ok.inj h).symm⟩
  · split_ifs at h
    exact .inr ⟨_, (Except.ok.inj h).symm⟩
  · cases h

/-- A word that names something is an operand. -/
lemma exists_atom_of_ofWord {word : String} {token : Token}
    (h : ofWord snapshot policy word = .ok token) : ∃ a : Atom, token = a.token := by
  rcases cases_of_ofWord h with ⟨b, rfl⟩ | ⟨v, rfl⟩
  · exact ⟨.truth b, rfl⟩
  · exact ⟨.variable v, rfl⟩

/-- A word is the token of a field exactly when it spells the path of the field and a rule may speak
of the field. -/
lemma ofWord_eq_record_iff {word : String} :
    ofWord snapshot policy word = .ok (.variable (.record path)) ↔
      FieldPath.ofWord? word = some path ∧ admits snapshot policy path = true := by
  constructor
  · intro h
    unfold ofWord at h
    split at h
    · cases h
    · cases h
    · split_ifs at h with hadmits
      cases h
      exact ⟨by assumption, hadmits⟩
    · cases h
  · rintro ⟨hword, hadmits⟩
    have hpoint : '.' ∈ word.toList := by
      rw [← FieldPath.text_of_ofWord? hword]
      simp [FieldPath.text]
    simp only [ofWord, readTruth?_eq_none_of_mem hpoint, Attribute.ofName?_eq_none_of_mem hpoint,
      hword, if_pos hadmits]

/-- The name of an attribute is the token of the attribute. -/
lemma ofWord_name (a : Attribute) : ofWord snapshot policy a.name = .ok (.variable (.named a)) := by
  have htruth : readTruth? a.name = none := by cases a <;> decide
  simp only [ofWord, htruth, Attribute.ofName?_name]

/-- A lexeme is the token of a field exactly when it is a word that is. -/
lemma ofLexeme_eq_record_iff {lexeme : Lexeme} :
    ofLexeme snapshot policy lexeme = .ok (.variable (.record path)) ↔
      lexeme = .word path.text ∧ '.' ∉ path.object.toList ∧ path.field ≠ "" ∧
        admits snapshot policy path = true := by
  cases lexeme with
  | word w =>
    rw [ofLexeme, ofWord_eq_record_iff, FieldPath.ofWord?_eq_some_iff, Lexeme.word.injEq, eq_comm]
    simp only [and_assoc]
  | _ => simp [ofLexeme]

/-- A lexeme is the token of an operator exactly when it is the operator. -/
lemma ofLexeme_eq_operator_iff {lexeme : Lexeme} {op : Operator} :
    ofLexeme snapshot policy lexeme = .ok (.operator op) ↔ lexeme = .operator op := by
  cases lexeme with
  | word w =>
    refine iff_of_false (fun h => ?_) (fun h => nomatch h)
    rcases cases_of_ofWord h with ⟨b, heq⟩ | ⟨v, heq⟩ <;> cases heq
  | _ => simp [ofLexeme]

/-- A lexeme is the token of a text exactly when it is the text between quotes. -/
lemma ofLexeme_eq_text_iff {lexeme : Lexeme} {literal : String} :
    ofLexeme snapshot policy lexeme = .ok (.text literal) ↔ lexeme = .quoted literal := by
  cases lexeme with
  | word w =>
    refine iff_of_false (fun h => ?_) (fun h => nomatch h)
    rcases cases_of_ofWord h with ⟨b, heq⟩ | ⟨v, heq⟩ <;> cases heq
  | _ => simp [ofLexeme]

/-- Lexemes one behind the other have the tokens of the first ones and those of the others.

**Proof sketch.** Induction on the lexemes of the front. The first of them has no token, which is
the error on both sides, or it has one, which stays in front of all others. -/
lemma ofLexemes_append (snapshot : Snapshot) (policy : FieldPolicy)
    (left right : List (Located Lexeme)) :
    ofLexemes snapshot policy (left ++ right) =
      ofLexemes snapshot policy left >>= fun tokens =>
        (ofLexemes snapshot policy right).map (tokens ++ ·) := by
  induction left with
  | nil =>
    rw [List.nil_append, ofLexemes]
    change _ = (ofLexemes snapshot policy right).map ([] ++ ·)
    cases ofLexemes snapshot policy right <;> rfl
  | cons lexeme left ih =>
    rw [List.cons_append, ofLexemes, ofLexemes]
    cases ofLexeme snapshot policy lexeme.value with
    | error fault => rfl
    | ok token =>
      dsimp only
      rw [ih]
      cases ofLexemes snapshot policy left with
      | error error => rfl
      | ok tokens => cases ofLexemes snapshot policy right <;> rfl

/-- The tokens of lexemes are those of each of them.

**Proof sketch.** Induction on the lexemes: the first one must have a token, at its own column, and
the others must have the remaining tokens. -/
lemma ofLexemes_eq_ok_iff {located : List (Located Lexeme)} {tokens : List (Located Token)} :
    ofLexemes snapshot policy located = .ok tokens ↔
      List.Forall₂ (fun lexeme token => ofLexeme snapshot policy lexeme.value = .ok token.value ∧
        token.column = lexeme.column) located tokens := by
  induction located generalizing tokens with
  | nil => simp [ofLexemes, eq_comm]
  | cons lexeme rest ih =>
    rw [ofLexemes]
    cases hlexeme : ofLexeme snapshot policy lexeme.value with
    | error fault =>
      simp [List.forall₂_cons_left_iff, hlexeme]
    | ok token =>
      dsimp only
      rw [bind_eq_ok_iff, List.forall₂_cons_left_iff]
      constructor
      · rintro ⟨others, hothers, h⟩
        obtain rfl := Except.ok.inj h
        exact ⟨_, _, ⟨hlexeme, rfl⟩, ih.1 hothers, rfl⟩
      · rintro ⟨⟨value, column⟩, others, ⟨hvalue, hcolumn⟩, hothers, rfl⟩
        obtain rfl := Except.ok.inj (hlexeme.symm.trans hvalue)
        obtain rfl : column = lexeme.column := hcolumn
        exact ⟨others, ih.2 hothers, rfl⟩

end Token

/-- What corresponds to two lists one behind the other is divided where they are. -/
lemma exists_append_of_forall₂ {α β : Type} {R : α → β → Prop} {items : List α}
    {left right : List β} (h : List.Forall₂ R items (left ++ right)) :
    ∃ front back, items = front ++ back ∧ List.Forall₂ R front left ∧ List.Forall₂ R back right :=
  ⟨_, _, (List.take_append_drop left.length items).symm, List.forall₂_take_append _ _ _ h,
    List.forall₂_drop_append _ _ _ h⟩

/-- **Tokens without columns.** A rule has certain tokens, wherever they stand, exactly when it
spells lexemes with these tokens.

**Proof sketch.** From left to right, the lexemes of the rule are what it spells, and each token is
that of its lexeme. From right to left, the rule has lexemes with the spelled values, by
`Targeting.spells_iff`, and their tokens stand at the columns of these lexemes. -/
theorem exists_tokensOf_iff {snapshot : Snapshot} {policy : FieldPolicy} {rule : String}
    {values : List Token} :
    (∃ tokens, tokensOf snapshot policy rule = .ok tokens ∧ tokens.map (·.value) = values) ↔
      ∃ lexemes, Spells rule.toList lexemes ∧
        List.Forall₂ (fun lexeme value => Token.ofLexeme snapshot policy lexeme = .ok value) lexemes
          values := by
  constructor
  · rintro ⟨tokens, htokens, rfl⟩
    obtain ⟨located, hlocated, htokens⟩ := bind_eq_ok_iff.1 htokens
    refine ⟨located.map (·.value), spells_iff.2 ⟨located, hlocated, rfl⟩, ?_⟩
    rw [List.forall₂_map_left_iff, List.forall₂_map_right_iff]
    exact (Token.ofLexemes_eq_ok_iff.1 htokens).imp fun _ _ h => h.1
  · rintro ⟨lexemes, hspells, hvalues⟩
    obtain ⟨located, hlocated, rfl⟩ := spells_iff.1 hspells
    rw [List.forall₂_map_left_iff] at hvalues
    -- each token stands where its lexeme does
    refine ⟨List.zipWith (fun lexeme value => ⟨value, lexeme.column⟩) located values,
      bind_eq_ok_iff.2 ⟨located, hlocated, ?_⟩, ?_⟩
    · rw [Token.ofLexemes_eq_ok_iff]
      clear hspells hlocated
      induction hvalues with
      | nil => exact .nil
      | cons h _ ih => exact .cons ⟨h, rfl⟩ ih
    · clear hspells hlocated
      induction hvalues with
      | nil => rfl
      | cons h _ ih => simpa using ih

end Targeting
