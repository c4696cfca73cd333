import Mathlib.Data.List.Chain
import Targeting.Definition.Formula
import Targeting.Proofs.Rule.WellFormed
import Targeting.Proofs.Rule.Words

/-!
# Formulas as text

A formula is laid out in *pieces*: blanks, parentheses, numbers and the words `AND` and `OR`. Where
no two words touch, each word is found as it was written. So the expansion of a formula replaces
its pieces one by one, and what a number is replaced by is not looked at again.

## Main definitions

* `Targeting.Formula.Piece` — the pieces, with `source` and `token?`.
* `Targeting.Formula.LaidOut` — the pieces of a text.
* `Targeting.Formula.Generates` — the formulas: numbers joined by `AND` and `OR`, with parentheses.

## Main results

* `Targeting.Formula.expandFrom_eq_ok` — the expansion of a formula, piece by piece.
* `Targeting.Formula.expandFrom_eq_error` — a number without a condition has no expansion.
* `Targeting.Formula.spells_written` — the lexemes of an expanded formula.
* `Targeting.Formula.Generates.exists_derives` — the pieces of a formula are read as a tree.
-/

set_option autoImplicit false

namespace Targeting

/-- No blank is a character of a word. -/
lemma isWordChar_of_isBlankChar {c : Char} (h : isBlankChar c = true) : isWordChar c = false := by
  have hcodes : ∀ n ∈ [9, 10, 11, 12, 13, 0x20, 0x85, 0xA0, 0x1680, 0x2000, 0x2001, 0x2002, 0x2003,
      0x2004, 0x2005, 0x2006, 0x2007, 0x2008, 0x2009, 0x200A, 0x2028, 0x2029, 0x202F, 0x205F,
      0x3000], isWordChar (Char.ofNat n) = false := by decide +kernel
  rw [← Char.ofNat_toNat c]
  refine hcodes c.toNat ?_
  simp only [isBlankChar, Bool.or_eq_true, Bool.and_eq_true, decide_eq_true_eq, beq_iff_eq] at h
  simp only [List.mem_cons, List.not_mem_nil, or_false]
  omega

namespace Formula

/-! ## Pieces -/

/-- A piece of a formula as it is written. -/
inductive Piece where
  | blank (c : Char)
  | number (digits : String)
  | and
  | or
  | opening
  | closing
deriving DecidableEq, Repr, Inhabited

namespace Piece

/-- The characters of a piece. -/
def source : Piece → List Char
  | blank c => [c]
  | number digits => digits.toList
  | and => "AND".toList
  | or => "OR".toList
  | opening => ['(']
  | closing => [')']

/-- Whether a piece is written as it should be: a blank is blank, and a number has ASCII digits, at
least one. -/
def WellFormed : Piece → Prop
  | blank c => isBlankChar c = true
  | number digits => digits ≠ "" ∧ ∀ c ∈ digits.toList, c.isDigit = true
  | _ => True

/-- Whether a piece is a word. -/
def IsWord : Piece → Prop
  | number _ | and | or => True
  | _ => False

/-- The token that a piece stands for when a formula is read as an expression, in which numbers are
operands; blanks have none. -/
def token? : Piece → Option Token
  | blank _ => none
  | number digits => some (.text digits)
  | and => some (.operator .and)
  | or => some (.operator .or)
  | opening => some .opening
  | closing => some .closing

instance : DecidablePred WellFormed
  | blank c => inferInstanceAs (Decidable (isBlankChar c = true))
  | number digits =>
    @instDecidableAnd (digits ≠ "") (∀ c ∈ digits.toList, c.isDigit = true) _
      (List.decidableBAll _ _)
  | and | or | opening | closing => .isTrue trivial

instance : DecidablePred IsWord
  | number _ | and | or => .isTrue trivial
  | blank _ | opening | closing => .isFalse id

end Piece

/-- The pieces of a text: they make up the text, each is written as it should be, and no word stands
right in front of a word. -/
structure LaidOut (pieces : List Piece) (text : List Char) : Prop where
  wellFormed : ∀ piece ∈ pieces, piece.WellFormed
  separated : pieces.IsChain fun piece next => ¬ (piece.IsWord ∧ next.IsWord)
  source : pieces.flatMap Piece.source = text

instance (pieces : List Piece) (text : List Char) : Decidable (LaidOut pieces text) :=
  decidable_of_iff ((∀ piece ∈ pieces, piece.WellFormed) ∧
      pieces.IsChain (fun piece next => ¬ (piece.IsWord ∧ next.IsWord)) ∧
      pieces.flatMap Piece.source = text)
    ⟨fun ⟨hwell, hsep, hsource⟩ => ⟨hwell, hsep, hsource⟩,
      fun ⟨hwell, hsep, hsource⟩ => ⟨hwell, hsep, hsource⟩⟩

/-- The formulas, blanks left out: a number, two formulas joined by `AND` or `OR`, or a formula in
parentheses. -/
inductive Generates : List Piece → Prop
  | number (digits : String) : Generates [.number digits]
  | and {left right} : Generates left → Generates right → Generates (left ++ .and :: right)
  | or {left right} : Generates left → Generates right → Generates (left ++ .or :: right)
  | group {inner} : Generates inner → Generates (.opening :: (inner ++ [.closing]))

/-! ## Words of a formula -/

/-- Whether a text lets a word of a formula end in front of it. -/
def EndsName : List Char → Prop
  | [] => True
  | c :: _ => isWordChar c = false

/-- A piece that is no word is one character, which is no character of a word. -/
lemma Piece.exists_source {piece : Piece} (hwell : piece.WellFormed) (h : ¬ piece.IsWord) :
    ∃ c, piece.source = [c] ∧ isWordChar c = false ∧ breaksWord c = true := by
  cases piece with
  | blank c =>
    have hblank : isBlankChar c = true := hwell
    exact ⟨c, rfl, isWordChar_of_isBlankChar hblank, by simp [breaksWord, hblank]⟩
  | opening => exact ⟨'(', rfl, by decide +kernel, by decide⟩
  | closing => exact ⟨')', rfl, by decide +kernel, by decide⟩
  | number | and | or => exact absurd trivial h

/-- The characters of a word are characters of words. -/
lemma Piece.isWordChar_of_mem {piece : Piece} (hwell : piece.WellFormed) (h : piece.IsWord)
    {c : Char} (hc : c ∈ piece.source) : isWordChar c = true := by
  refine isWordChar_of_isAlphanum ?_
  cases piece with
  | number digits =>
    have hdigit := hwell.2 c hc
    simp [Char.isAlphanum, hdigit]
  | and | or => exact List.all_eq_true.1 (by decide) c hc
  | blank | opening | closing => exact absurd h id

namespace LaidOut

variable {piece : Piece} {pieces : List Piece} {text : List Char}

/-- The pieces of a text that is not empty are a first piece and the pieces of the rest. Behind a
word stands no word. -/
lemma of_cons (h : LaidOut (piece :: pieces) text) :
    ∃ rest, text = piece.source ++ rest ∧ piece.WellFormed ∧ LaidOut pieces rest ∧
      (piece.IsWord → ∀ next ∈ pieces.head?, ¬ next.IsWord) := by
  obtain ⟨hwell, hsep, hsource⟩ := h
  refine ⟨pieces.flatMap Piece.source, hsource.symm, hwell piece (List.mem_cons_self ..),
    ⟨fun next hnext => hwell next (List.mem_cons_of_mem _ hnext), hsep.tail, rfl⟩, ?_⟩
  intro hword next hnext
  obtain ⟨others, rfl⟩ := List.head?_eq_some_iff.1 hnext
  exact fun hnextword => (List.isChain_cons_cons.1 hsep).1 ⟨hword, hnextword⟩

/-- A text without a word in front lets a word end. -/
lemma endsName (h : LaidOut pieces text) (hnext : ∀ next ∈ pieces.head?, ¬ next.IsWord) :
    EndsName text := by
  cases pieces with
  | nil =>
    obtain rfl : [] = text := h.source
    trivial
  | cons next pieces =>
    obtain ⟨rest, rfl, hwell, -, -⟩ := h.of_cons
    obtain ⟨c, hsource, hchar, -⟩ := Piece.exists_source hwell (hnext next rfl)
    rw [hsource]
    exact hchar

end LaidOut

/-! ## Expansion -/

section Expansion

variable {condition : UInt32 → Option String}

/-- What becomes of a piece: a word is replaced, anything else stays. -/
def Piece.replace (condition : UInt32 → Option String) (piece : Piece) :
    Except CriterionFault (List Char) :=
  if piece.IsWord then replaceWord condition piece.source else .ok piece.source

/-- Characters of a word are added to the word that is being read. -/
lemma expandFrom_append {chars : List Char} (h : ∀ c ∈ chars, isWordChar c = true)
    (word rest : List Char) :
    expandFrom condition word (chars ++ rest) =
      expandFrom condition (chars.reverse ++ word) rest := by
  induction chars generalizing word with
  | nil => rfl
  | cons c chars ih =>
    obtain ⟨hc, hchars⟩ := List.forall_mem_cons.1 h
    rw [List.cons_append, expandFrom, if_pos hc, ih hchars]
    simp

/-- The empty word stays. -/
lemma replaceWord_nil : replaceWord condition [] = .ok [] := rfl

/-- Behind a character that is not of a word, expansion begins anew. -/
lemma expandFrom_cons {c : Char} (h : isWordChar c = false) (rest : List Char) :
    expandFrom condition [] (c :: rest) = (expandFrom condition [] rest).map (c :: ·) := by
  rw [expandFrom, if_neg (by simp [h]), List.reverse_nil, replaceWord_nil]
  change (expandFrom condition [] rest >>= fun others => pure ([] ++ c :: others)) = _
  cases expandFrom condition [] rest <;> rfl

/-- A word is replaced where it ends. -/
lemma expandFrom_of_endsName {rest : List Char} (h : EndsName rest) (word : List Char) :
    expandFrom condition word rest = replaceWord condition word.reverse >>= fun replaced =>
      (expandFrom condition [] rest).map (replaced ++ ·) := by
  cases rest with
  | nil =>
    rw [expandFrom, expandFrom, List.reverse_nil, replaceWord_nil]
    cases replaceWord condition word.reverse with
    | error fault => rfl
    | ok replaced => exact congrArg Except.ok (List.append_nil replaced).symm
  | cons c rest =>
    rw [expandFrom_cons h, expandFrom, if_neg (by simp [show isWordChar c = false from h])]
    refine bind_congr fun replaced => ?_
    cases expandFrom condition [] rest <;> rfl

/-- A formula is expanded piece by piece. -/
lemma expandFrom_piece {piece : Piece} (hwell : piece.WellFormed) {rest : List Char}
    (hends : piece.IsWord → EndsName rest) :
    expandFrom condition [] (piece.source ++ rest) = piece.replace condition >>= fun replaced =>
      (expandFrom condition [] rest).map (replaced ++ ·) := by
  by_cases hword : piece.IsWord
  · have hchars : ∀ c ∈ piece.source, isWordChar c = true :=
      fun c hc => Piece.isWordChar_of_mem hwell hword hc
    rw [expandFrom_append hchars, expandFrom_of_endsName (hends hword), Piece.replace,
      if_pos hword, List.append_nil, List.reverse_reverse]
  · obtain ⟨c, hsource, hchar, -⟩ := Piece.exists_source hwell hword
    rw [Piece.replace, if_neg hword, hsource]
    exact expandFrom_cons hchar rest

/-- **Expansion goes piece by piece.** A formula whose pieces can all be replaced is expanded by
replacing them. -/
theorem expandFrom_eq_ok {pieces : List Piece} {text : List Char} (h : LaidOut pieces text)
    {written : Piece → List Char}
    (hwritten : ∀ piece ∈ pieces, piece.replace condition = .ok (written piece)) :
    expandFrom condition [] text = .ok (pieces.flatMap written) := by
  induction pieces generalizing text with
  | nil =>
    obtain rfl : [] = text := h.source
    rfl
  | cons piece pieces ih =>
    obtain ⟨hpiece, hpieces⟩ := List.forall_mem_cons.1 hwritten
    obtain ⟨rest, rfl, hwell, hrest, hnext⟩ := h.of_cons
    rw [expandFrom_piece hwell fun hword => hrest.endsName (hnext hword), hpiece, ih hrest hpieces]
    rfl

/-- A formula with a piece that cannot be replaced is not expanded.

**Proof sketch.** Induction on the pieces. The first one is replaced by itself, as the next piece
ends it. If it cannot be replaced, nothing is expanded; if it can, it is not the one that cannot,
which is among the others. -/
theorem expandFrom_eq_error {pieces : List Piece} {text : List Char} (h : LaidOut pieces text)
    {piece : Piece} (hmem : piece ∈ pieces) {fault : CriterionFault}
    (hfault : piece.replace condition = .error fault) :
    ∃ fault, expandFrom condition [] text = .error fault := by
  induction pieces generalizing text with
  | nil => cases hmem
  | cons first pieces ih =>
    obtain ⟨rest, rfl, hwell, hrest, hnext⟩ := h.of_cons
    rw [expandFrom_piece hwell fun hword => hrest.endsName (hnext hword)]
    cases hfirst : first.replace condition with
    | error other => exact ⟨other, rfl⟩
    | ok replaced =>
      rcases List.mem_cons.1 hmem with rfl | hmem
      · cases hfirst.symm.trans hfault
      · obtain ⟨other, hother⟩ := ih hrest hmem
        rw [hother]
        exact ⟨other, rfl⟩

end Expansion

/-! ## Lexemes -/

/-- The characters that a piece becomes, given the text of the condition of each number. -/
def Piece.written (texts : String → String) : Piece → List Char
  | number digits => (texts digits).toList
  | and => Operator.and.symbol.toList
  | or => Operator.or.symbol.toList
  | piece => piece.source

/-- The lexemes that a token of a formula becomes, given those of the condition of each number. -/
def spelledToken (spelled : String → List Lexeme) : Token → List Lexeme
  | .text digits => spelled digits
  | .operator op => [.operator op]
  | .opening => [.opening]
  | .closing => [.closing]
  | _ => []

/-- The lexemes of an expanded formula are those of its pieces.

**Proof sketch.** Induction on the pieces. Only the condition of a number may end in a word; behind
it stands a blank or a parenthesis, or nothing. -/
theorem spells_written {texts : String → String} {spelled : String → List Lexeme}
    {pieces : List Piece} {text : List Char} (h : LaidOut pieces text)
    (hspells : ∀ digits, .number digits ∈ pieces →
      Spells (texts digits).toList (spelled digits)) :
    Spells (pieces.flatMap (Piece.written texts))
      (pieces.flatMap fun piece => piece.token?.elim [] (spelledToken spelled)) := by
  induction pieces generalizing text with
  | nil => exact .nil
  | cons piece pieces ih =>
    obtain ⟨rest, rfl, hwell, hrest, hnext⟩ := h.of_cons
    have hothers := ih hrest fun digits hmem => hspells digits (List.mem_cons_of_mem _ hmem)
    rw [List.flatMap_cons, List.flatMap_cons]
    cases piece with
    | blank c => exact hothers.blank hwell
    | opening => exact hothers.opening
    | closing => exact hothers.closing
    | and => exact hothers.operator .and
    | or => exact hothers.operator .or
    | number digits =>
      refine (hspells digits (List.mem_cons_self ..)).append hothers ?_
      -- what stands behind a number ends the word that its condition may end in
      cases pieces with
      | nil => trivial
      | cons next pieces =>
        have hword : ¬ next.IsWord := hnext trivial next rfl
        obtain ⟨c, hsource, -, hbreak⟩ :=
          Piece.exists_source (hrest.wellFormed next (List.mem_cons_self ..)) hword
        have hwritten : next.written texts = [c] := by
          rw [← hsource]
          cases next with
          | number | and | or => exact absurd trivial hword
          | blank | opening | closing => rfl
        rw [List.flatMap_cons, hwritten]
        exact hbreak

/-! ## Formulas as expressions -/

/-- The tokens that a formula is read as. -/
def tokens (pieces : List Piece) : List (Located Token) :=
  (pieces.filterMap Piece.token?).map fun token => ⟨token, 0⟩

/-- The tokens of a formula are those of its pieces that are no blanks. -/
lemma tokens_filter (pieces : List Piece) :
    tokens (pieces.filter fun piece => piece.token?.isSome) = tokens pieces := by
  rw [tokens, tokens, List.filterMap_filter]
  congr 2
  funext piece
  cases piece <;> rfl

/-- The texts among the tokens of a formula are its numbers. -/
lemma text_mem_tokens_iff {pieces : List Piece} {digits : String} :
    .text digits ∈ (tokens pieces).map (·.value) ↔ .number digits ∈ pieces := by
  have htoken : ∀ piece : Piece,
      piece.token? = some (.text digits) ↔ piece = .number digits := by
    intro piece
    cases piece <;> simp [Piece.token?]
  simp [tokens, htoken]

/-- Each token of a formula is that of a piece. -/
lemma exists_piece_of_mem_tokens {pieces : List Piece} {token : Located Token}
    (h : token ∈ tokens pieces) : ∃ piece : Piece, piece.token? = some token.value := by
  obtain ⟨value, hvalue, rfl⟩ := List.mem_map.1 h
  obtain ⟨piece, -, hpiece⟩ := List.mem_filterMap.1 hvalue
  exact ⟨piece, hpiece⟩

/-- The lexemes that the tokens of a formula become are those that its pieces become. -/
lemma flatMap_tokens (spelled : Token → List Lexeme) (pieces : List Piece) :
    (tokens pieces).flatMap (fun token => spelled token.value) =
      pieces.flatMap fun piece => piece.token?.elim [] spelled := by
  induction pieces with
  | nil => rfl
  | cons piece pieces ih =>
    rw [List.flatMap_cons, ← ih]
    cases piece <;> rfl

/-- The pieces of a formula are the tokens of some tree, and so of one that the grammar has.

**Proof sketch.** Induction on how the pieces are generated gives some tree with these tokens, which
need not respect how tightly the operators bind. Whatever the tree is, its tokens are those of one
that does, by `Targeting.Expression.exists_derives_tokens`. -/
theorem Generates.exists_derives {pieces : List Piece} (h : Generates pieces) :
    ∃ tree, Derives .disjunction (tokens pieces) tree := by
  have htokens : ∃ e : Expression, e.tokens = tokens pieces := by
    induction h with
    | number digits => exact ⟨.atom (.text digits) 0, rfl⟩
    | and _ _ ihl ihr =>
      obtain ⟨l, hl⟩ := ihl
      obtain ⟨r, hr⟩ := ihr
      exact ⟨.binary .and 0 l r, by simp [Expression.tokens, hl, hr, tokens, Piece.token?]⟩
    | or _ _ ihl ihr =>
      obtain ⟨l, hl⟩ := ihl
      obtain ⟨r, hr⟩ := ihr
      exact ⟨.binary .or 0 l r, by simp [Expression.tokens, hl, hr, tokens, Piece.token?]⟩
    | group _ ih =>
      obtain ⟨e, he⟩ := ih
      exact ⟨.group 0 e 0, by simp [Expression.tokens, he, tokens, Piece.token?]⟩
  obtain ⟨e, he⟩ := htokens
  rw [← he]
  exact e.exists_derives_tokens

end Formula

end Targeting
