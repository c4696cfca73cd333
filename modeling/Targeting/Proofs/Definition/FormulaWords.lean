import Targeting.Proofs.Definition.FormulaText
import Targeting.Proofs.Rule.Balance

/-!
# Formulas as rules

Whatever stands in a formula besides numbers and the words `AND` and `OR` goes into the rule as it
is. So a formula may also be looked at as a rule: it is cut into lexemes, in which numbers and other
words are operands. Where each of its numbers and connectives is a lexeme of its own, the expanded
formula acts as the tokens of the formula do: in place of a number stands a well-formed rule.

A word or a quoted text may have a number or a connective inside. A connective between quotes does
no harm, as the quoted text remains one. All else may change what the lexemes are.

## Main definitions

* `Targeting.Formula.words` — the words of a text.
* `Targeting.Formula.IsApart` — whether a lexeme has no number or connective inside that does harm.
* `Targeting.Formula.token` — the token that a lexeme of a formula is.
* `Targeting.Formula.Becomes` — what an item of a formula is replaced by.

## Main results

* `Targeting.Formula.replaceWord_cases` — what becomes of a word.
* `Targeting.Formula.eq_of_expandFrom` — a text without words to be replaced stays as it is.
* `Targeting.Formula.exists_glyphs_of_expandFrom` — a quoted text without numbers remains quoted.
* `Targeting.Formula.exists_becomes` — formulas are expanded item by item.
* `Targeting.Formula.actsAs_expandFrom` — an expanded formula acts as the tokens of the formula.
-/

set_option autoImplicit false

namespace Targeting.Formula

/-! ## Words that are replaced -/

/-- The words of a text: its longest runs of word characters. -/
def words (text : List Char) : List (List Char) :=
  (text.splitOnP fun c => !isWordChar c).filter (· ≠ [])

/-- Whether a word is a number. -/
def IsNumber (word : List Char) : Prop := word ≠ [] ∧ ∀ c ∈ word, c.isDigit = true

/-- Whether a word is replaced: it is `AND`, `OR` or a number. -/
def IsReplaced (word : List Char) : Prop :=
  word = "AND".toList ∨ word = "OR".toList ∨ IsNumber word

/-- Whether a lexeme has no number or connective inside that does harm: a word is replaced as a
whole or not at all, and in a quoted text no number is replaced. -/
def IsApart : Lexeme → Prop
  | .word text => IsReplaced text.toList ∨ ∀ word ∈ words text.toList, ¬ IsReplaced word
  | .quoted text => ∀ word ∈ words text.toList, ¬ IsNumber word
  | _ => True

instance : DecidablePred IsNumber := fun word =>
  @instDecidableAnd (word ≠ []) (∀ c ∈ word, c.isDigit = true) _ (List.decidableBAll _ _)

instance : DecidablePred IsReplaced := fun word =>
  inferInstanceAs (Decidable (word = "AND".toList ∨ word = "OR".toList ∨ IsNumber word))

instance : DecidablePred IsApart
  | .word text =>
    @instDecidableOr (IsReplaced text.toList) (∀ word ∈ words text.toList, ¬ IsReplaced word) _
      (List.decidableBAll _ _)
  | .quoted text => List.decidableBAll (fun word => ¬ IsNumber word) (words text.toList)
  | .operator _ | .opening | .closing => .isTrue trivial

/-- The token that a lexeme of a formula is, where numbers and other words are operands. -/
def token : Lexeme → Token
  | .word text =>
    if text = "AND" then .operator .and else if text = "OR" then .operator .or else .text text
  | lexeme => lexeme.asToken

/-! ## Words of a text -/

/-- The words in front of a character that is not of a word, and those behind it. -/
lemma words_append_cons {c : Char} (h : isWordChar c = false) (text rest : List Char) :
    words (text ++ c :: rest) = words text ++ words rest := by
  rw [words, List.splitOnP_append_cons text rest (by simp [h]), List.filter_append]
  rfl

/-- A character that is not of a word, in front of a text. -/
lemma words_cons {c : Char} (h : isWordChar c = false) (rest : List Char) :
    words (c :: rest) = words rest := words_append_cons h [] rest

/-- What is so of all words of what has been read, last character first, is so of all of it if it
has characters of words only, unless it is empty. -/
lemma of_forall_mem_words {P : List Char → Prop} (hnil : P []) {word : List Char}
    (hword : ∀ c ∈ word, isWordChar c = true) (h : ∀ w ∈ words word.reverse, P w) :
    P word.reverse := by
  by_cases hne : word = []
  · rwa [hne]
  · refine h word.reverse ?_
    have hchars : ∀ c ∈ word.reverse, (!isWordChar c) = false := fun c hc => by
      simp [hword c (List.mem_reverse.1 hc)]
    rw [words, List.splitOnP_eq_singleton hchars]
    simp [hne]

/-- Glyphs have the words of the text that they stand for: neither a quote nor a backslash is a
character of a word.

**Proof sketch.** Induction on the glyphs. A plain glyph is the character that it stands for, and
moves to the text in front. A quote ends the word in front of it, and so does its backslash, with no
word between them. -/
lemma words_glyphSource (glyphs : List Glyph) (text : List Char) :
    words (text ++ glyphSource glyphs) = words (text ++ glyphs.map Glyph.char) := by
  have hquote : isWordChar '\'' = false := by decide +kernel
  have hbackslash : isWordChar '\\' = false := by decide +kernel
  induction glyphs generalizing text with
  | nil => rfl
  | cons g glyphs ih =>
    cases g with
    | plain c =>
      calc words (text ++ c :: glyphSource glyphs)
          = words ((text ++ [c]) ++ glyphSource glyphs) := by rw [List.append_cons]
        _ = words ((text ++ [c]) ++ glyphs.map Glyph.char) := ih _
        _ = words (text ++ c :: glyphs.map Glyph.char) := by rw [← List.append_cons]
    | quote =>
      change words (text ++ '\\' :: '\'' :: glyphSource glyphs) =
        words (text ++ '\'' :: glyphs.map Glyph.char)
      rw [words_append_cons hbackslash, words_cons hquote, words_append_cons hquote]
      exact congrArg (words text ++ ·) (ih [])

/-- A word that is replaced has characters of words only. -/
lemma IsReplaced.isWordChar {word : List Char} (h : IsReplaced word) {c : Char} (hc : c ∈ word) :
    isWordChar c = true := by
  refine isWordChar_of_isAlphanum ?_
  rcases h with rfl | rfl | ⟨-, hdigits⟩
  · exact List.all_eq_true.1 (by decide) c hc
  · exact List.all_eq_true.1 (by decide) c hc
  · simp [Char.isAlphanum, hdigits c hc]

/-- Glyphs that stand for a word to be replaced are written as its characters. -/
lemma glyphSource_of_isReplaced {glyphs : List Glyph}
    (h : IsReplaced (glyphs.map Glyph.char)) : glyphSource glyphs = glyphs.map Glyph.char := by
  have hchars : ∀ g ∈ glyphs, g.source = [g.char] := by
    intro g hg
    cases g with
    | plain c => rfl
    | quote =>
      have hquote := h.isWordChar (List.mem_map_of_mem hg)
      exact absurd hquote (by decide +kernel)
  rw [glyphSource, List.flatMap_congr hchars, ← List.map_eq_flatMap]

/-- What ends a word of a rule is no character of a word of a formula. -/
lemma isWordChar_of_breaksWord {c : Char} (h : breaksWord c = true) : isWordChar c = false := by
  rcases cases_of_breaksWord h with hblank | rfl | rfl | hoperator
  · exact isWordChar_of_isBlankChar hblank
  · decide +kernel
  · decide +kernel
  · simp only [Operator.isOperatorChar, Bool.or_eq_true, decide_eq_true_eq] at hoperator
    rcases hoperator with (((rfl | rfl) | rfl) | rfl) | rfl <;> decide +kernel

/-- Where a word of a rule ends, a word of a formula does. -/
lemma endsName_of_endsWord {rest : List Char} (h : EndsWord rest) : EndsName rest := by
  cases rest with
  | nil => trivial
  | cons c rest => exact isWordChar_of_breaksWord h

/-! ## Words are replaced -/

variable {condition : UInt32 → Option String}

/-- A word is looked up as a number exactly when it is one. -/
lemma isNumber_iff {word : List Char} :
    (!word.isEmpty && word.all Char.isDigit) = true ↔ IsNumber word := by
  rw [Bool.and_eq_true, Bool.not_eq_true', List.isEmpty_eq_false_iff, List.all_eq_true]
  rfl

/-- What becomes of a word: it stays, or is a connective, or is a number with a condition. -/
lemma replaceWord_cases {word written : List Char} (h : replaceWord condition word = .ok written) :
    (¬ IsReplaced word ∧ written = word) ∨
      (IsReplaced word ∧ ∃ op : Operator, token (.word (String.ofList word)) = .operator op ∧
        written = op.symbol.toList) ∨
      (IsNumber word ∧ ∃ text, (number? word).bind condition = some text ∧
        written = text.toList) := by
  unfold replaceWord at h
  split_ifs at h with hand hor hnumber
  · subst hand
    exact .inr (.inl ⟨.inl rfl, .and, rfl, (Except.ok.inj h).symm⟩)
  · subst hor
    exact .inr (.inl ⟨.inr (.inl rfl), .or, rfl, (Except.ok.inj h).symm⟩)
  · refine .inr (.inr ⟨isNumber_iff.1 hnumber, ?_⟩)
    split at h
    · next text htext => exact ⟨text, htext, (Except.ok.inj h).symm⟩
    · cases h
  · rw [isNumber_iff] at hnumber
    exact .inl ⟨not_or.2 ⟨hand, not_or.2 ⟨hor, hnumber⟩⟩, (Except.ok.inj h).symm⟩

/-- A word that is not to be replaced stays. -/
lemma eq_of_replaceWord {word written : List Char} (h : replaceWord condition word = .ok written)
    (hword : ¬ IsReplaced word) : written = word := by
  rcases replaceWord_cases h with ⟨-, rfl⟩ | ⟨hreplaced, -⟩ | ⟨hnumber, -⟩
  · rfl
  · exact absurd hreplaced hword
  · exact absurd (.inr (.inr hnumber)) hword

/-- Where a word ends, a text can be cut in two: each part is expanded by itself.

**Proof sketch.** Induction on the text. A character of a word is read into the word, and at any
other one the word is replaced and the expansion begins again. At the end of the text the word ends
too, since the rest lets it end. -/
lemma expandFrom_append_of_endsName {rest : List Char} (h : EndsName rest) (word text : List Char) :
    expandFrom condition word (text ++ rest) = expandFrom condition word text >>= fun written =>
      (expandFrom condition [] rest).map (written ++ ·) := by
  induction text generalizing word with
  | nil => exact expandFrom_of_endsName h word
  | cons c text ih =>
    rw [List.cons_append, expandFrom, expandFrom]
    split_ifs with hc
    · exact ih (c :: word)
    · rw [ih []]
      cases replaceWord condition word.reverse with
      | error fault => rfl
      | ok replaced =>
        cases expandFrom condition [] text with
        | error fault => rfl
        | ok written =>
          cases expandFrom condition [] rest with
          | error fault => rfl
          | ok others =>
            exact congrArg Except.ok (List.append_assoc replaced (c :: written) others).symm

/-- The parts of an expanded text around a character that is not of a word. -/
lemma exists_of_expandFrom_append_cons {c : Char} (hc : isWordChar c = false)
    (text : List Char) {word rest chars : List Char}
    (h : expandFrom condition word (text ++ c :: rest) = .ok chars) :
    ∃ written others, expandFrom condition word text = .ok written ∧
      expandFrom condition [] rest = .ok others ∧ chars = written ++ c :: others := by
  have hends : EndsName (c :: rest) := hc
  rw [expandFrom_append_of_endsName hends] at h
  obtain ⟨written, hwritten, h⟩ := bind_eq_ok_iff.1 h
  obtain ⟨behind, hbehind, rfl⟩ := map_eq_ok_iff.1 h
  rw [expandFrom_cons hc] at hbehind
  obtain ⟨others, hothers, rfl⟩ := map_eq_ok_iff.1 hbehind
  exact ⟨written, others, hwritten, hothers, rfl⟩

/-! ## Texts that stay -/

/-- **What stays.** A text without words to be replaced is expanded to itself. The characters of
`word` have been read already.

**Proof sketch.** Induction on the text. A character of a word is read into the word. At another one
the word that was read is replaced, which leaves it as it is by `hstays`, and so does the expansion
of what is behind. -/
lemma eq_of_expandFrom {word text written : List Char} (hword : ∀ c ∈ word, isWordChar c = true)
    (hstays : ∀ w ∈ words (word.reverse ++ text), ¬ IsReplaced w)
    (h : expandFrom condition word text = .ok written) : written = word.reverse ++ text := by
  induction text generalizing word written with
  | nil =>
    rw [List.append_nil] at hstays ⊢
    exact eq_of_replaceWord h (of_forall_mem_words (by decide) hword hstays)
  | cons c text ih =>
    by_cases hc : isWordChar c = true
    · rw [expandFrom, if_pos hc] at h
      rw [List.append_cons, ← List.reverse_cons] at hstays ⊢
      exact ih (List.forall_mem_cons.2 ⟨hc, hword⟩) hstays h
    · have hc : isWordChar c = false := Bool.eq_false_iff.2 hc
      rw [words_append_cons hc] at hstays
      obtain ⟨hdone, hbehind⟩ := List.forall_mem_append.1 hstays
      obtain ⟨replaced, others, hreplaced, hothers, rfl⟩ :=
        exists_of_expandFrom_append_cons hc [] h
      obtain rfl := eq_of_replaceWord hreplaced (of_forall_mem_words (by decide) hword hdone)
      obtain rfl := ih (List.forall_mem_nil _) hbehind hothers
      rfl

/-- What has been read of a quoted text without numbers becomes glyphs of a quoted text. -/
lemma exists_glyphs_of_replaceWord {word written : List Char}
    (hword : ∀ c ∈ word, isWordChar c = true) (hnumber : ∀ w ∈ words word.reverse, ¬ IsNumber w)
    (h : replaceWord condition word.reverse = .ok written) :
    ∃ others : List Glyph, (∀ g ∈ others, g.InQuotes) ∧ written = glyphSource others := by
  have hinside : ∀ c ∈ written, (Glyph.plain c).InQuotes := by
    rcases replaceWord_cases h with ⟨-, rfl⟩ | ⟨-, op, -, rfl⟩ | ⟨hdigits, -⟩
    · intro c hc
      have hchar := hword c (List.mem_reverse.1 hc)
      constructor <;> rintro rfl <;> exact absurd hchar (by decide +kernel)
    · rw [Operator.symbol, String.toList_ofList]
      exact List.forall_mem_cons.2 ⟨by cases op <;> decide,
        List.forall_mem_singleton.2 (by cases op <;> decide)⟩
    · exact absurd hdigits (of_forall_mem_words (by decide) hword hnumber)
  exact ⟨written.map .plain, List.forall_mem_map.2 hinside,
    by simp [glyphSource, Glyph.source, List.flatMap_map]⟩

/-- **Quoted texts remain quoted.** The glyphs of a quoted text without numbers are expanded to
glyphs of a quoted text. The characters of `word` have been read already.

**Proof sketch.** Induction on the glyphs. A glyph of a word is read into the word. At any other one
the word that was read ends; it is no number, so it becomes glyphs of a quoted text, by
`Targeting.Formula.exists_glyphs_of_replaceWord`, and so does what is behind. An escaped quote ends
the word twice, at the backslash and at the quote. -/
lemma exists_glyphs_of_expandFrom {glyphs : List Glyph} {word written : List Char}
    (hglyphs : ∀ g ∈ glyphs, g.InQuotes) (hword : ∀ c ∈ word, isWordChar c = true)
    (hnumber : ∀ w ∈ words (word.reverse ++ glyphs.map Glyph.char), ¬ IsNumber w)
    (h : expandFrom condition word (glyphSource glyphs) = .ok written) :
    ∃ others : List Glyph, (∀ g ∈ others, g.InQuotes) ∧ written = glyphSource others := by
  induction glyphs generalizing word written with
  | nil =>
    rw [List.map_nil, List.append_nil] at hnumber
    exact exists_glyphs_of_replaceWord hword hnumber h
  | cons g glyphs ih =>
    obtain ⟨hg, hmore⟩ := List.forall_mem_cons.1 hglyphs
    by_cases hc : isWordChar g.char = true
    · cases g with
      | quote => exact absurd hc (by decide +kernel)
      | plain c =>
        change expandFrom condition word (c :: glyphSource glyphs) = .ok written at h
        rw [expandFrom, if_pos (show isWordChar c = true from hc)] at h
        rw [List.map_cons, List.append_cons, ← List.reverse_cons] at hnumber
        exact ih hmore (List.forall_mem_cons.2 ⟨hc, hword⟩) hnumber h
    · -- what has been read ends in front of the glyph
      have hc : isWordChar g.char = false := Bool.eq_false_iff.2 hc
      rw [List.map_cons, words_append_cons hc] at hnumber
      obtain ⟨hdone, hbehind⟩ := List.forall_mem_append.1 hnumber
      have hparts : ∃ replaced behind, replaceWord condition word.reverse = .ok replaced ∧
          expandFrom condition [] (glyphSource glyphs) = .ok behind ∧
          written = replaced ++ (g.source ++ behind) := by
        cases g with
        | plain c => exact exists_of_expandFrom_append_cons hc [] h
        | quote =>
          change expandFrom condition word ('\\' :: '\'' :: glyphSource glyphs) = .ok written at h
          obtain ⟨replaced, others, hreplaced, hothers, rfl⟩ :=
            exists_of_expandFrom_append_cons (c := '\\') (by decide +kernel) [] h
          rw [expandFrom_cons (show isWordChar '\'' = false from hc)] at hothers
          obtain ⟨behind, hbehind, rfl⟩ := map_eq_ok_iff.1 hothers
          exact ⟨replaced, behind, hreplaced, hbehind, rfl⟩
      obtain ⟨replaced, behind, hreplaced, hbehind', rfl⟩ := hparts
      obtain ⟨front, hfront, rfl⟩ := exists_glyphs_of_replaceWord hword hdone hreplaced
      obtain ⟨others, hothers, rfl⟩ := ih hmore (List.forall_mem_nil _) hbehind hbehind'
      exact ⟨front ++ g :: others,
        List.forall_mem_append.2 ⟨hfront, List.forall_mem_cons.2 ⟨hg, hothers⟩⟩,
        by simp [glyphSource]⟩

/-! ## Items are replaced -/

/-- What an item of a formula becomes: it is kept, or remains a quoted text, or is a connective or
a number that is replaced. -/
inductive Becomes (condition : UInt32 → Option String) : Item → List Char → Prop
  | kept {item : Item} (h : ∀ lexeme ∈ item.lexeme?, token lexeme = lexeme.asToken) :
    Becomes condition item item.source
  | quoted {glyphs others : List Glyph} (h : ∀ g ∈ others, g.InQuotes) :
    Becomes condition (.quoted glyphs) (Item.quoted others).source
  | connective {glyphs : List Glyph} {op : Operator}
    (h : token (.word (glyphText glyphs)) = .operator op) :
    Becomes condition (.word glyphs) op.symbol.toList
  | number {glyphs : List Glyph} {text : String} (hnumber : IsNumber (glyphText glyphs).toList)
    (h : (number? (glyphText glyphs).toList).bind condition = some text) :
    Becomes condition (.word glyphs) text.toList

/-- A word that is neither `AND` nor `OR` is an operand. -/
lemma token_word {text : String} (hand : text ≠ "AND") (hor : text ≠ "OR") :
    token (.word text) = .text text := by
  rw [token, if_neg hand, if_neg hor]

/-- A number is an operand. -/
lemma IsNumber.token_word {text : String} (h : IsNumber text.toList) :
    token (.word text) = .text text := by
  refine Formula.token_word ?_ ?_ <;> rintro rfl <;> exact absurd h (by decide)

/-- A word without anything inside that is replaced is an operand. -/
lemma token_word_of_forall_mem {text : String} (h : ∀ word ∈ words text.toList, ¬ IsReplaced word) :
    token (.word text) = .text text := by
  refine token_word ?_ ?_
  · rintro rfl
    exact h "AND".toList (by decide +kernel) (.inl rfl)
  · rintro rfl
    exact h "OR".toList (by decide +kernel) (.inr (.inl rfl))

/-- Characters that are not of words stay in front of a text. -/
lemma expandFrom_of_forall_not {text : List Char} (h : ∀ c ∈ text, isWordChar c = false)
    (rest : List Char) :
    expandFrom condition [] (text ++ rest) = (expandFrom condition [] rest).map (text ++ ·) := by
  induction text with
  | nil =>
    rw [List.nil_append]
    cases expandFrom condition [] rest <;> rfl
  | cons c text ih =>
    obtain ⟨hc, htext⟩ := List.forall_mem_cons.1 h
    rw [List.cons_append, expandFrom_cons hc, ih htext]
    cases expandFrom condition [] rest <;> rfl

/-- What a word becomes that has nothing inside that is replaced, unless all of it is.

**Proof sketch.** If all of the word is replaced, it becomes a connective or the text of its number.
Otherwise nothing inside is replaced, so it stays as it is by `Targeting.Formula.eq_of_expandFrom`.
-/
lemma becomes_word {glyphs : List Glyph} {written : List Char}
    (hapart : IsApart (.word (glyphText glyphs)))
    (h : expandFrom condition [] (glyphSource glyphs) = .ok written) :
    Becomes condition (.word glyphs) written := by
  have htext : (glyphText glyphs).toList = glyphs.map Glyph.char := String.toList_ofList
  rcases hapart with hreplaced | hstays
  · rw [htext] at hreplaced
    rw [glyphSource_of_isReplaced hreplaced,
      ← List.append_nil (glyphs.map _), expandFrom_append (fun _ hc => hreplaced.isWordChar hc),
      expandFrom, List.append_nil, List.reverse_reverse] at h
    rcases replaceWord_cases h with ⟨hstays, -⟩ | ⟨-, op, htoken, rfl⟩ | ⟨hnumber, text, hn, rfl⟩
    · exact absurd hreplaced hstays
    · exact .connective htoken
    · rw [← htext] at hnumber hn
      exact .number hnumber hn
  · have htoken := token_word_of_forall_mem hstays
    rw [htext, ← List.nil_append (glyphs.map _), ← words_glyphSource] at hstays
    obtain rfl := eq_of_expandFrom (List.forall_mem_nil _) hstays h
    exact .kept fun lexeme hlexeme => by
      obtain rfl := Option.some.inj hlexeme
      exact htoken

/-- **Formulas are expanded item by item.**

**Proof sketch.** By cases on the item. Blanks, parentheses and operators have no characters of
words, so they stay. In a quoted text the glyphs become glyphs, by
`Targeting.Formula.exists_glyphs_of_expandFrom`, and the quotes around it stay. A word ends in front
of what follows, so it is expanded by itself, by `Targeting.Formula.becomes_word`. -/
theorem exists_becomes {item : Item} {rest chars : List Char} (hwell : item.WellFormed)
    (hword : ∀ glyphs, item = .word glyphs → EndsWord rest)
    (hapart : ∀ lexeme ∈ item.lexeme?, IsApart lexeme)
    (h : expandFrom condition [] (item.source ++ rest) = .ok chars) :
    ∃ written others, Becomes condition item written ∧
      expandFrom condition [] rest = .ok others ∧ chars = written ++ others := by
  -- an item without characters of words is copied
  have hkept : (∀ c ∈ item.source, isWordChar c = false) →
      (∀ lexeme ∈ item.lexeme?, token lexeme = lexeme.asToken) →
      ∃ written others, Becomes condition item written ∧
        expandFrom condition [] rest = .ok others ∧ chars = written ++ others := by
    intro hchars htoken
    rw [expandFrom_of_forall_not hchars] at h
    obtain ⟨others, hothers, rfl⟩ := map_eq_ok_iff.1 h
    exact ⟨item.source, others, .kept htoken, hothers, rfl⟩
  cases item with
  | blank c =>
    exact hkept (List.forall_mem_singleton.2 (isWordChar_of_isBlankChar hwell))
      fun _ hlexeme => nomatch hlexeme
  | opening | closing =>
    exact hkept (List.forall_mem_singleton.2 (isWordChar_of_breaksWord rfl))
      (by simp [Item.lexeme?, token])
  | operator op =>
    have hbreaks : breaksWord op.chars.1 = true ∧ breaksWord op.chars.2 = true := by
      cases op <;> decide
    exact hkept (List.forall_mem_cons.2 ⟨isWordChar_of_breaksWord hbreaks.1,
      List.forall_mem_singleton.2 (isWordChar_of_breaksWord hbreaks.2)⟩)
      (by simp [Item.lexeme?, token])
  | quoted glyphs =>
    have hquote : isWordChar '\'' = false := by decide +kernel
    -- the quotes around the glyphs end words, so what is between them is expanded by itself
    have hsource : (Item.quoted glyphs).source ++ rest =
        ('\'' :: glyphSource glyphs) ++ '\'' :: rest := by
      simp [Item.source]
    rw [hsource] at h
    obtain ⟨written, others, hwritten, hothers, rfl⟩ :=
      exists_of_expandFrom_append_cons hquote _ h
    rw [expandFrom_cons hquote] at hwritten
    obtain ⟨inside, hinside, rfl⟩ := map_eq_ok_iff.1 hwritten
    have hnumber : ∀ word ∈ words (glyphs.map Glyph.char), ¬ IsNumber word := by
      have hlexeme := hapart _ rfl
      rwa [IsApart, glyphText, String.toList_ofList] at hlexeme
    obtain ⟨glyphs', hglyphs', rfl⟩ :=
      exists_glyphs_of_expandFrom hwell (List.forall_mem_nil _) hnumber hinside
    exact ⟨_, others, .quoted hglyphs', hothers, by simp [Item.source]⟩
  | word glyphs =>
    have hends : EndsName rest := endsName_of_endsWord (hword glyphs rfl)
    rw [Item.source, expandFrom_append_of_endsName hends] at h
    obtain ⟨written, hwritten, h⟩ := bind_eq_ok_iff.1 h
    obtain ⟨others, hothers, rfl⟩ := map_eq_ok_iff.1 h
    exact ⟨written, others, becomes_word (hapart _ rfl) hwritten, hothers, rfl⟩

/-- Where an item lets a word end, so does what it becomes. -/
lemma Becomes.endsWord {item : Item} {written : List Char} (h : Becomes condition item written)
    (hwell : item.WellFormed) {rest : List Char} (hends : EndsWord (item.source ++ rest))
    (others : List Char) : EndsWord (written ++ others) := by
  have hprecede := (Item.endsWord_source_iff hwell [] rest).1 hends
  cases h with
  | kept => exact (Item.endsWord_source_iff hwell [] others).2 hprecede
  | quoted | connective | number => exact absurd hprecede id

/-- What an item becomes acts as the token that it is, if words have their ends.

**Proof sketch.** By cases on what the item becomes. What is kept is the item itself, in front of
the rest. A quoted text acts as any other one, a connective as its operator, and the text of a
number, which is well formed, as one operand. -/
lemma Becomes.actsAs {item : Item} {written : List Char} (h : Becomes condition item written)
    (hcondition : ∀ digits text, item.lexeme? = some (.word digits) → IsNumber digits.toList →
      (number? digits.toList).bind condition = some text → IsWellFormed text)
    (hwell : item.WellFormed) {rest : List Char} {tokens : List Token} (hrest : ActsAs rest tokens)
    (hends : ∀ glyphs, item = .word glyphs → EndsWord rest) :
    ActsAs (written ++ rest) (item.lexeme?.toList.map token ++ tokens) := by
  cases h with
  | kept h =>
    have hitem := hrest.cons item hwell hends
    rwa [← List.map_congr_left fun lexeme hlexeme => h lexeme (Option.mem_toList.1 hlexeme)]
      at hitem
  | quoted h => exact hrest.quoted h rfl
  | @connective glyphs op h =>
    change ActsAs _ (token (.word (glyphText glyphs)) :: tokens)
    rw [h]
    exact hrest.operator op
  | @number glyphs text hnumber h =>
    change ActsAs _ (token (.word (glyphText glyphs)) :: tokens)
    rw [hnumber.token_word]
    exact .operand (hcondition _ text rfl hnumber h) hrest (hends glyphs rfl) rfl

/-- **A formula acts as its tokens.** Where the conditions of all numbers are well-formed rules, and
no lexeme has a number or a connective inside that does harm, an expanded formula acts as the tokens
of the formula.

**Proof sketch.** Induction on the items of the formula. A condition may end in a word; then the
number that it replaces was one, and what follows still lets a word end. -/
theorem actsAs_expandFrom {items : List Item} {text chars : List Char} (h : Decomposes items text)
    (hcondition : ∀ digits text, .word digits ∈ items.filterMap Item.lexeme? →
      IsNumber digits.toList → (number? digits.toList).bind condition = some text →
      IsWellFormed text)
    (hapart : ∀ lexeme ∈ items.filterMap Item.lexeme?, IsApart lexeme)
    (hchars : expandFrom condition [] text = .ok chars) :
    (EndsWord text → EndsWord chars) ∧
      ActsAs chars ((items.filterMap Item.lexeme?).map token) := by
  induction items generalizing text chars with
  | nil =>
    obtain rfl : [] = text := h.source
    obtain rfl := Except.ok.inj hchars
    exact ⟨id, .nil⟩
  | cons item items ih =>
    have hlexemes : (item :: items).filterMap Item.lexeme? =
        item.lexeme?.toList ++ items.filterMap Item.lexeme? := by
      rw [List.filterMap_cons]
      cases item.lexeme? <;> rfl
    rw [hlexemes] at hapart hcondition ⊢
    obtain ⟨hitem, hitems⟩ := List.forall_mem_append.1 hapart
    obtain ⟨rest, rfl, hwell, hrest, hword⟩ := h.of_cons
    obtain ⟨written, others, hbecomes, hothers, rfl⟩ :=
      exists_becomes hwell hword (fun lexeme hmem => hitem lexeme (Option.mem_toList.2 hmem)) hchars
    have hfirst : ∀ digits text, item.lexeme? = some (.word digits) → IsNumber digits.toList →
        (number? digits.toList).bind condition = some text → IsWellFormed text :=
      fun digits text hlexeme =>
        hcondition digits text (List.mem_append_left _ (Option.mem_toList.2 hlexeme))
    obtain ⟨hends, hacts⟩ := ih hrest
      (fun digits text hmem => hcondition digits text (List.mem_append_right _ hmem)) hitems hothers
    rw [List.map_append]
    exact ⟨fun htext => hbecomes.endsWord hwell htext others,
      hbecomes.actsAs hfirst hwell hacts fun glyphs hglyphs => hends (hword glyphs hglyphs)⟩

end Targeting.Formula
