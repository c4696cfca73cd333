import Mathlib.Data.List.Chain
import Targeting.Proofs.Failure
import Targeting.Rule.Lexeme

/-!
# The lexical grammar

The text of a rule is a sequence of *items*: blanks, parentheses, operators, quoted texts and words.
Quoted texts and words are written in *glyphs*, where a quote has a backslash in front. Nothing has
to stand between two items, but a word may not touch another word or a quoted text behind it.

## Main definitions

* `Targeting.Glyph`, `Targeting.Item` — how characters and items are written, and which are allowed.
* `Targeting.Decomposes` — the items of a text.
* `Targeting.Item.locate` — the lexemes of a sequence of items, with their columns.

## Main results

* `Targeting.lexemesFrom_decomposes` — the lexemes of a text that has items are those of the items.
* `Targeting.exists_decomposes` — a text with lexemes has items.
* `Targeting.lexemesOf_eq_ok_iff` — the lexemes of a rule are those of its items.
* `Targeting.isOk_lexemesOf_iff_decomposes` — the same without columns.
-/

set_option autoImplicit false

namespace Targeting

/-! ## Items -/

/-- Whether a character ends a word in front of it: a blank, a parenthesis or a character of an
operator. -/
def breaksWord (c : Char) : Bool :=
  isBlankChar c || c = '(' || c = ')' || Operator.isOperatorChar c

/-- A character of a word or of a quoted text as it is written: by itself, or a quote with a
backslash in front. -/
inductive Glyph where
  | plain (c : Char)
  | quote
deriving DecidableEq, Repr, Inhabited

namespace Glyph

/-- The characters of a glyph. -/
def source : Glyph → List Char
  | plain c => [c]
  | quote => ['\\', '\'']

/-- The character that a glyph stands for. -/
def char : Glyph → Char
  | plain c => c
  | quote => '\''

/-- Whether a glyph may stand in a quoted text: quotes and backslashes may not stand alone. -/
def InQuotes : Glyph → Prop
  | plain c => c ≠ '\'' ∧ c ≠ '\\'
  | quote => True

/-- Whether a glyph may stand in a word: besides, what ends a word may not. -/
def InWord : Glyph → Prop
  | plain c => c ≠ '\'' ∧ c ≠ '\\' ∧ breaksWord c = false
  | quote => True

instance : DecidablePred InQuotes
  | plain c => inferInstanceAs (Decidable (c ≠ '\'' ∧ c ≠ '\\'))
  | quote => .isTrue trivial

instance : DecidablePred InWord
  | plain c => inferInstanceAs (Decidable (c ≠ '\'' ∧ c ≠ '\\' ∧ breaksWord c = false))
  | quote => .isTrue trivial

/-- The column at which the character of a glyph stands. -/
def place (column : Nat) : Glyph → Nat
  | plain _ => column
  | quote => column + 1

end Glyph

/-- The characters of glyphs in sequence. -/
def glyphSource (glyphs : List Glyph) : List Char := glyphs.flatMap Glyph.source

/-- The text that glyphs stand for. -/
def glyphText (glyphs : List Glyph) : String := String.ofList (glyphs.map Glyph.char)

/-- A piece of the text of a rule as it is written. -/
inductive Item where
  | blank (c : Char)
  | opening
  | closing
  | operator (op : Operator)
  | quoted (glyphs : List Glyph)
  | word (glyphs : List Glyph)
deriving DecidableEq, Repr, Inhabited

namespace Item

/-- The characters of an item. -/
def source : Item → List Char
  | blank c => [c]
  | opening => ['(']
  | closing => [')']
  | operator op => [op.chars.1, op.chars.2]
  | quoted glyphs => '\'' :: (glyphSource glyphs ++ ['\''])
  | word glyphs => glyphSource glyphs

/-- Whether an item is written as the grammar has it: blanks are blank, the glyphs are allowed where
they stand, and a word is not empty. -/
def WellFormed : Item → Prop
  | blank c => isBlankChar c = true
  | quoted glyphs => ∀ g ∈ glyphs, g.InQuotes
  | word glyphs => glyphs ≠ [] ∧ ∀ g ∈ glyphs, g.InWord
  | _ => True

/-- Whether an item may stand right in front of another one: a word may not stand in front of a word
or of a quoted text. -/
def MayPrecede : Item → Item → Prop
  | word _, word _ | word _, quoted _ => False
  | _, _ => True

instance : DecidablePred WellFormed
  | blank c => inferInstanceAs (Decidable (isBlankChar c = true))
  | opening | closing | operator _ => .isTrue trivial
  | quoted glyphs => inferInstanceAs (Decidable (∀ g ∈ glyphs, g.InQuotes))
  | word glyphs => inferInstanceAs (Decidable (glyphs ≠ [] ∧ ∀ g ∈ glyphs, g.InWord))

instance : DecidableRel MayPrecede
  | word _, word _ | word _, quoted _ => .isFalse id
  | word _, blank _ | word _, opening | word _, closing | word _, operator _ => .isTrue trivial
  | blank _, _ | opening, _ | closing, _ | operator _, _ | quoted _, _ => .isTrue trivial

/-- The lexeme of an item; blanks have none. -/
def lexeme? : Item → Option Lexeme
  | blank _ => none
  | opening => some .opening
  | closing => some .closing
  | operator op => some (.operator op)
  | quoted glyphs => some (.quoted (glyphText glyphs))
  | word glyphs => some (.word (glyphText glyphs))

/-- The column of the lexeme of an item: a word that begins with a quote has the column of the
quote, not of the backslash. -/
def place (column : Nat) : Item → Nat
  | word (g :: _) => g.place column
  | _ => column

/-- The lexeme of an item at a column, as a list of at most one. -/
def located (column : Nat) (item : Item) : List (Located Lexeme) :=
  item.lexeme?.toList.map fun lexeme => ⟨lexeme, item.place column⟩

/-- The lexemes of items, the first of which stands at a column. -/
def locate : Nat → List Item → List (Located Lexeme)
  | _, [] => []
  | column, item :: items => item.located column ++ locate (column + item.source.length) items

end Item

/-- The items of a text: they make up the text, each is written as the grammar has it, and may stand
where it does. -/
structure Decomposes (items : List Item) (text : List Char) : Prop where
  wellFormed : ∀ item ∈ items, item.WellFormed
  separated : items.IsChain Item.MayPrecede
  source : items.flatMap Item.source = text

instance (items : List Item) (text : List Char) : Decidable (Decomposes items text) :=
  decidable_of_iff ((∀ item ∈ items, item.WellFormed) ∧ items.IsChain Item.MayPrecede ∧
      items.flatMap Item.source = text)
    ⟨fun ⟨hwell, hsep, hsource⟩ => ⟨hwell, hsep, hsource⟩,
      fun ⟨hwell, hsep, hsource⟩ => ⟨hwell, hsep, hsource⟩⟩

/-! ## The words of a text -/

/-- Whether a text lets a word end in front of it. -/
def EndsWord : List Char → Prop
  | [] => True
  | c :: _ => breaksWord c = true

/-- A word may stand in front of an item exactly when the item lets it end.

**Proof sketch.** By cases on the item, by its first character. Blanks, parentheses and operators
begin with a character that breaks a word; a quoted text and a word do not. -/
lemma Item.endsWord_source_iff {item : Item} (h : item.WellFormed) (glyphs : List Glyph)
    (rest : List Char) :
    EndsWord (item.source ++ rest) ↔ (Item.word glyphs).MayPrecede item := by
  cases item with
  | blank c =>
    have hbreak : breaksWord c = true := by simp [breaksWord, show isBlankChar c = true from h]
    exact iff_of_true hbreak trivial
  | opening | closing => exact iff_of_true rfl trivial
  | operator op => exact iff_of_true (by cases op <;> rfl) trivial
  | quoted glyphs' => exact iff_of_false (by change ¬ breaksWord '\'' = true; decide) id
  | word glyphs' =>
    obtain ⟨hne, hword⟩ := h
    obtain ⟨g, others, rfl⟩ := List.exists_cons_of_ne_nil hne
    refine iff_of_false ?_ id
    cases g with
    | quote => change ¬ breaksWord '\\' = true; decide
    | plain c =>
      have hbreak : breaksWord c = false := (hword (.plain c) (List.mem_cons_self ..)).2.2
      change ¬ breaksWord c = true
      rw [hbreak]
      decide

namespace Decomposes

variable {item : Item} {items : List Item} {text rest : List Char}

/-- The items of a text that is not empty are a first item and the items of the rest. A word is
first only if the rest lets it end. -/
lemma of_cons (h : Decomposes (item :: items) text) :
    ∃ rest, text = item.source ++ rest ∧ item.WellFormed ∧ Decomposes items rest ∧
      ∀ glyphs, item = .word glyphs → EndsWord rest := by
  obtain ⟨hwell, hsep, hsource⟩ := h
  refine ⟨items.flatMap Item.source, hsource.symm, hwell item (List.mem_cons_self ..),
    ⟨fun next hnext => hwell next (List.mem_cons_of_mem _ hnext), hsep.tail, rfl⟩, ?_⟩
  rintro glyphs rfl
  cases items with
  | nil => trivial
  | cons next items =>
    have hnext := hwell next (List.mem_cons_of_mem _ (List.mem_cons_self ..))
    exact (Item.endsWord_source_iff hnext glyphs _).2 (List.isChain_cons_cons.1 hsep).1

/-- A first item in front of the items of the rest, if the rest lets a word end. -/
lemma cons (hitem : item.WellFormed) (h : Decomposes items rest)
    (hword : ∀ glyphs, item = .word glyphs → EndsWord rest) :
    Decomposes (item :: items) (item.source ++ rest) := by
  obtain ⟨hwell, hsep, rfl⟩ := h
  refine ⟨List.forall_mem_cons.2 ⟨hitem, hwell⟩, ?_, rfl⟩
  cases items with
  | nil => exact .singleton item
  | cons next items =>
    refine .cons_cons ?_ hsep
    cases item with
    | word glyphs =>
      exact (Item.endsWord_source_iff (hwell next (List.mem_cons_self ..)) glyphs _).1
        (hword glyphs rfl)
    | _ => trivial

end Decomposes

/-! ## Items are read -/

/-- Reading goes on after a character that can be read. -/
lemma lexemesFrom_cons {state next : ReadState} {column : Nat} {c : Char}
    {lexemes : List (Located Lexeme)} (h : state.read column c = .ok (lexemes, next))
    (rest : List Char) :
    lexemesFrom state column (c :: rest) =
      (lexemesFrom next (column + 1) rest).map (lexemes ++ ·) := by
  rw [lexemesFrom, h]
  change (lexemesFrom next (column + 1) rest >>= fun others => pure (lexemes ++ others)) = _
  cases lexemesFrom next (column + 1) rest <;> rfl

/-- Reading goes on after a character that ends no lexeme. -/
lemma lexemesFrom_cons_silent {state next : ReadState} {column : Nat} {c : Char}
    (h : state.read column c = .ok ([], next)) (rest : List Char) :
    lexemesFrom state column (c :: rest) = lexemesFrom next (column + 1) rest := by
  rw [lexemesFrom_cons h]
  cases lexemesFrom next (column + 1) rest <;> rfl

namespace Pending

/-- Whether a pending lexeme may go on with a glyph. -/
def Admits : Pending → Glyph → Prop
  | quoted _ _, g => g.InQuotes
  | _, g => g.InWord

/-- A pending word or quoted text with more glyphs. -/
def extend (glyphs : List Glyph) : Pending → Pending
  | nothing => nothing
  | word start chars => word start ((glyphs.map Glyph.char).reverse ++ chars)
  | quoted start chars => quoted start ((glyphs.map Glyph.char).reverse ++ chars)

/-- Whether a pending lexeme can end in front of a text: a quoted text ends at a quote. -/
def EndsAt (pending : Pending) (rest : List Char) : Prop :=
  match pending with
  | quoted _ _ => rest.head? = some '\''
  | _ => EndsWord rest

/-- After one more character a lexeme is pending. -/
lemma push_ne_nothing (pending : Pending) (column : Nat) (c : Char) :
    pending.push column c ≠ nothing := by
  cases pending <;> simp [push]

/-- A pending lexeme admits the same glyphs after one more character. -/
lemma admits_push (pending : Pending) (column : Nat) (c : Char) :
    (pending.push column c).Admits = pending.Admits := by
  cases pending <;> rfl

/-- A pending lexeme can end at the same places after one more character. -/
lemma endsAt_push (pending : Pending) (column : Nat) (c : Char) :
    (pending.push column c).EndsAt = pending.EndsAt := by
  cases pending <;> rfl

/-- Glyphs are added one by one. -/
lemma extend_push {pending : Pending} (h : pending ≠ nothing) (column : Nat) (g : Glyph)
    (glyphs : List Glyph) :
    (pending.push column g.char).extend glyphs = pending.extend (g :: glyphs) := by
  cases pending with
  | nothing => exact absurd rfl h
  | word start chars | quoted start chars => simp [push, extend]

end Pending

/-- A glyph is added to the pending lexeme that admits it.

**Proof sketch.** A plain glyph is one character, which the pending lexeme admits as it is. A quote
is two: the backslash begins an escape, and the quote ends it and has the later column. -/
lemma lexemesFrom_glyph {pending : Pending} {g : Glyph} (h : pending.Admits g) (column : Nat)
    (rest : List Char) :
    lexemesFrom (.plain pending) column (g.source ++ rest) =
      lexemesFrom (.plain (pending.push (g.place column) g.char)) (column + g.source.length)
        rest := by
  cases g with
  | quote =>
    calc lexemesFrom (.plain pending) column ('\\' :: '\'' :: rest)
        = lexemesFrom (.escaping pending) (column + 1) ('\'' :: rest) :=
          lexemesFrom_cons_silent rfl _
      _ = lexemesFrom (.plain (pending.push (column + 1) '\'')) (column + 1 + 1) rest :=
          lexemesFrom_cons_silent rfl _
  | plain c =>
    refine lexemesFrom_cons_silent ?_ rest
    cases pending with
    | quoted start chars =>
      obtain ⟨hquote, hescape⟩ := h
      simp [ReadState.read, ReadState.readPlain, hquote, hescape, Pending.isQuoted, Glyph.place,
        Glyph.char]
    | nothing | word start chars =>
      obtain ⟨hquote, hescape, hbreak⟩ := h
      simp only [breaksWord, Bool.or_eq_false_iff, decide_eq_false_iff_not] at hbreak
      simp [ReadState.read, ReadState.readPlain, hquote, hescape, hbreak, Pending.isQuoted,
        Glyph.place, Glyph.char]

/-- Glyphs are added to the pending lexeme that admits them.

**Proof sketch.** Induction on the glyphs: each is added by `Targeting.lexemesFrom_glyph`, and the
pending lexeme still admits the others, as it remains quoted or a word. -/
lemma lexemesFrom_glyphs {pending : Pending} (hpending : pending ≠ .nothing) {glyphs : List Glyph}
    (h : ∀ g ∈ glyphs, pending.Admits g) (column : Nat) (rest : List Char) :
    lexemesFrom (.plain pending) column (glyphSource glyphs ++ rest) =
      lexemesFrom (.plain (pending.extend glyphs)) (column + (glyphSource glyphs).length) rest := by
  induction glyphs generalizing pending column with
  | nil => cases pending <;> rfl
  | cons g glyphs ih =>
    obtain ⟨hg, hglyphs⟩ := List.forall_mem_cons.1 h
    have hsource : glyphSource (g :: glyphs) ++ rest =
        g.source ++ (glyphSource glyphs ++ rest) := by
      simp [glyphSource]
    rw [hsource, lexemesFrom_glyph hg,
      ih (pending.push_ne_nothing _ _) ((pending.admits_push _ _).symm ▸ hglyphs),
      Pending.extend_push hpending]
    congr 1
    simp [glyphSource]
    omega

/-- What ends a word is a blank, a parenthesis or a character of an operator. -/
lemma cases_of_breaksWord {c : Char} (h : breaksWord c = true) :
    isBlankChar c = true ∨ c = '(' ∨ c = ')' ∨ Operator.isOperatorChar c = true := by
  simpa [breaksWord, or_assoc] using h

/-- A blank completes the pending word. -/
lemma read_blank {pending : Pending} (hpending : pending.isQuoted = false) {c : Char}
    (h : isBlankChar c = true) (column : Nat) :
    ReadState.read (.plain pending) column c = .ok (pending.flush, .plain .nothing) := by
  have hquote : c ≠ '\'' := by rintro rfl; exact absurd h (by decide)
  have hescape : c ≠ '\\' := by rintro rfl; exact absurd h (by decide)
  simp [ReadState.read, ReadState.readPlain, hquote, hescape, hpending, h]

/-- The first character of an operator completes the pending word. -/
lemma read_operatorChar {pending : Pending} (hpending : pending.isQuoted = false) {c : Char}
    (h : Operator.isOperatorChar c = true) (column : Nat) :
    ReadState.read (.plain pending) column c = .ok (pending.flush, .operator c column) := by
  have hplain : c ≠ '\'' ∧ c ≠ '\\' ∧ isBlankChar c = false ∧ c ≠ '(' ∧ c ≠ ')' := by
    simp only [Operator.isOperatorChar, Bool.or_eq_true, decide_eq_true_eq] at h
    rcases h with (((rfl | rfl) | rfl) | rfl) | rfl <;> decide
  obtain ⟨hquote, hescape, hblank, hopening, hclosing⟩ := hplain
  simp [ReadState.read, ReadState.readPlain, hquote, hescape, hpending, hblank, hopening, hclosing,
    h]

/-- What ends a word completes it and is read as after nothing. -/
lemma read_of_breaksWord {c : Char} (h : breaksWord c = true) (column : Nat) :
    ∃ lexemes next, ∀ pending : Pending, pending.isQuoted = false →
      ReadState.read (.plain pending) column c = .ok (pending.flush ++ lexemes, next) := by
  rcases cases_of_breaksWord h with hblank | rfl | rfl | hoperator
  · refine ⟨[], .plain .nothing, fun pending hpending => ?_⟩
    rw [read_blank hpending hblank, List.append_nil]
  · refine ⟨[⟨.opening, column⟩], .plain .nothing, fun pending hpending => ?_⟩
    cases pending <;> first | rfl | cases hpending
  · refine ⟨[⟨.closing, column⟩], .plain .nothing, fun pending hpending => ?_⟩
    cases pending <;> first | rfl | cases hpending
  · refine ⟨[], .operator c column, fun pending hpending => ?_⟩
    rw [read_operatorChar hpending hoperator, List.append_nil]

/-- A text that lets a word end is read as after nothing, once the pending word is complete. -/
lemma lexemesFrom_word_of_endsWord {rest : List Char} (h : EndsWord rest) (start : Nat)
    (chars : List Char) (column : Nat) :
    lexemesFrom (.plain (.word start chars)) column rest =
      (lexemesFrom (.plain .nothing) column rest).map ((Pending.word start chars).flush ++ ·) := by
  cases rest with
  | nil => rfl
  | cons c rest =>
    obtain ⟨lexemes, next, hread⟩ := read_of_breaksWord h column
    rw [lexemesFrom_cons (hread (.word start chars) rfl), lexemesFrom_cons (hread .nothing rfl)]
    cases lexemesFrom next (column + 1) rest with
    | error error => rfl
    | ok others => simp [Except.map, Pending.flush]

/-- A closing quote completes the pending text. -/
lemma lexemesFrom_quoted_quote (start : Nat) (chars : List Char) (column : Nat) (rest : List Char) :
    lexemesFrom (.plain (.quoted start chars)) column ('\'' :: rest) =
      (lexemesFrom (.plain .nothing) (column + 1) rest).map
        ([⟨.quoted (String.ofList chars.reverse), start⟩] ++ ·) :=
  lexemesFrom_cons rfl rest

/-- An item is read as its lexeme, if the rest lets a word end.

**Proof sketch.** A blank, a parenthesis and an operator are read character by character. The glyphs
of a quoted text are added to the pending text until the closing quote. The glyphs of a word are
added to the pending word, which the rest completes. -/
lemma lexemesFrom_item {item : Item} {rest : List Char} (h : item.WellFormed)
    (hword : ∀ glyphs, item = .word glyphs → EndsWord rest) (column : Nat) :
    lexemesFrom (.plain .nothing) column (item.source ++ rest) =
      (lexemesFrom (.plain .nothing) (column + item.source.length) rest).map
        (item.located column ++ ·) := by
  cases item with
  | blank c =>
    have hread : ReadState.read (.plain .nothing) column c = .ok ([], .plain .nothing) :=
      read_blank rfl h column
    exact lexemesFrom_cons hread rest
  | opening | closing => exact lexemesFrom_cons rfl rest
  | operator op =>
    have hfirst : ReadState.read (.plain .nothing) column op.chars.1 =
        .ok ([], .operator op.chars.1 column) := by cases op <;> rfl
    have hsecond : ReadState.read (.operator op.chars.1 column) (column + 1) op.chars.2 =
        .ok ([⟨.operator op, column⟩], .plain .nothing) := by
      rw [ReadState.read, Operator.ofChars?_chars]
    exact (lexemesFrom_cons_silent hfirst _).trans (lexemesFrom_cons hsecond rest)
  | quoted glyphs =>
    have hsource : (Item.quoted glyphs).source ++ rest =
        '\'' :: (glyphSource glyphs ++ '\'' :: rest) := by simp [Item.source]
    -- between quotes every glyph is admitted, so only the closing quote ends the text
    have hglyphs : ∀ g ∈ glyphs, (Pending.quoted column []).Admits g := h
    have hopen : ReadState.read (.plain .nothing) column '\'' =
        .ok ([], .plain (.quoted column [])) := rfl
    rw [hsource, lexemesFrom_cons_silent hopen, lexemesFrom_glyphs (by simp) hglyphs,
      Pending.extend, lexemesFrom_quoted_quote]
    congr 2
    · simp [Item.located, Item.lexeme?, Item.place, glyphText]
    · simp [Item.source]; omega
  | word glyphs =>
    obtain ⟨hne, hglyphs⟩ := h
    -- the first glyph opens the word and has its column
    obtain ⟨g, glyphs, rfl⟩ := List.exists_cons_of_ne_nil hne
    obtain ⟨hg, hglyphs⟩ := List.forall_mem_cons.1 hglyphs
    have hg : Pending.nothing.Admits g := hg
    have hglyphs : ∀ g' ∈ glyphs, (Pending.word (g.place column) [g.char]).Admits g' := hglyphs
    have hsource : (Item.word (g :: glyphs)).source ++ rest =
        g.source ++ (glyphSource glyphs ++ rest) := by simp [Item.source, glyphSource]
    rw [hsource, lexemesFrom_glyph hg, Pending.push, lexemesFrom_glyphs (by simp) hglyphs,
      Pending.extend, lexemesFrom_word_of_endsWord (hword _ rfl)]
    congr 2
    · simp [Item.located, Item.lexeme?, Item.place, glyphText, Pending.flush]
    · simp [Item.source, glyphSource]; omega

/-- **What has items is read.** The lexemes of a text that has items are those of the items.

**Proof sketch.** Induction on the items (`lexemesFrom_item`). -/
theorem lexemesFrom_decomposes {items : List Item} {text : List Char} (h : Decomposes items text)
    (column : Nat) :
    lexemesFrom (.plain .nothing) column text = .ok (Item.locate column items) := by
  induction items generalizing text column with
  | nil =>
    obtain rfl : [] = text := h.source
    rfl
  | cons item items ih =>
    obtain ⟨rest, rfl, hitem, hitems, hword⟩ := h.of_cons
    rw [lexemesFrom_item hitem hword, ih hitems]
    rfl

/-! ## What is read has items -/

/-- Behind a backslash stands a quote. -/
lemma exists_of_backslash {pending : Pending} {column : Nat} {text : List Char}
    {lexemes : List (Located Lexeme)}
    (h : lexemesFrom (.plain pending) column ('\\' :: text) = .ok lexemes) :
    ∃ rest, '\\' :: text = Glyph.quote.source ++ rest := by
  have hread : ReadState.read (.plain pending) column '\\' = .ok ([], .escaping pending) := rfl
  rw [lexemesFrom_cons_silent hread] at h
  cases text with
  | nil => cases pending <;> cases h
  | cons c rest =>
    by_cases hquote : c = '\''
    · exact ⟨rest, by rw [hquote]; rfl⟩
    · rw [lexemesFrom, ReadState.read, if_neg hquote] at h
      cases h

/-- What can be read after the start of a word or of a quoted text goes on with glyphs up to where
that can end.

**Proof sketch.** Strong induction on the length of the text. A character that the pending lexeme
admits is a glyph, and so are a backslash and the quote behind it. At any other character the
lexeme ends or reading fails. -/
lemma exists_glyphs {pending : Pending} (hpending : pending ≠ .nothing) {column : Nat}
    {text : List Char} {lexemes : List (Located Lexeme)}
    (h : lexemesFrom (.plain pending) column text = .ok lexemes) :
    ∃ glyphs rest, text = glyphSource glyphs ++ rest ∧ (∀ g ∈ glyphs, pending.Admits g) ∧
      pending.EndsAt rest := by
  induction hn : text.length using Nat.strong_induction_on generalizing pending column text with
  | _ n ih =>
  -- the glyph at the front, and what the induction says of the text behind it
  have hglyph : ∀ (g : Glyph) (rest : List Char), text = g.source ++ rest → pending.Admits g →
      ∃ glyphs rest, text = glyphSource glyphs ++ rest ∧ (∀ g ∈ glyphs, pending.Admits g) ∧
        pending.EndsAt rest := by
    rintro g rest rfl hg
    rw [lexemesFrom_glyph hg] at h
    have hshorter : rest.length < n := by
      rw [← hn, List.length_append]
      cases g <;> simp [Glyph.source]
    obtain ⟨glyphs, rest', rfl, hglyphs, hends⟩ :=
      ih rest.length hshorter (pending.push_ne_nothing _ _) h rfl
    rw [pending.admits_push] at hglyphs
    rw [pending.endsAt_push] at hends
    exact ⟨g :: glyphs, rest', by simp [glyphSource], List.forall_mem_cons.2 ⟨hg, hglyphs⟩, hends⟩
  cases text with
  | nil =>
    cases pending with
    | nothing => exact absurd rfl hpending
    | word start chars => exact ⟨[], [], rfl, by simp, trivial⟩
    | quoted start chars => cases h
  | cons c rest =>
    by_cases hadmits : pending.Admits (.plain c)
    · exact hglyph (.plain c) rest rfl hadmits
    by_cases hescape : c = '\\'
    · subst hescape
      obtain ⟨rest', hrest⟩ := exists_of_backslash h
      exact hglyph .quote rest' hrest (by cases pending <;> trivial)
    refine ⟨[], c :: rest, rfl, by simp, ?_⟩
    cases pending with
    | nothing => exact absurd rfl hpending
    | quoted start chars =>
      have hquote : c = '\'' := by
        by_contra hquote
        exact hadmits ⟨hquote, hescape⟩
      exact congrArg some hquote
    | word start chars =>
      by_contra hbreak
      by_cases hquote : c = '\''
      · subst hquote
        cases h
      · exact hadmits ⟨hquote, hescape, Bool.eq_false_iff.2 hbreak⟩

/-- A character of an operator is the first one of an operator.

**Proof sketch.** Such a character waits for the second one of an operator. At the end of the text,
or in front of a character that makes no operator with it, there are no lexemes. -/
lemma exists_operator {column : Nat} {c : Char} {text : List Char}
    {lexemes : List (Located Lexeme)} (hc : Operator.isOperatorChar c = true)
    (h : lexemesFrom (.plain .nothing) column (c :: text) = .ok lexemes) :
    ∃ op rest, c :: text = (Item.operator op).source ++ rest := by
  have hread : ReadState.read (.plain .nothing) column c = .ok ([], .operator c column) :=
    read_operatorChar rfl hc column
  rw [lexemesFrom_cons_silent hread] at h
  cases text with
  | nil => cases h
  | cons second rest =>
    cases hop : Operator.ofChars? c second with
    | none =>
      rw [lexemesFrom, ReadState.read, hop] at h
      cases h
    | some op =>
      have hchars := Operator.ofChars?_eq_some_iff.1 hop
      exact ⟨op, rest, by rw [Item.source, hchars]; rfl⟩

/-- What can be read after nothing begins with an item.

**Proof sketch.** By the first character. One that ends words is a blank, a parenthesis or the first
character of an operator, whose second one follows. A quote begins a quoted text, which can only end
at another quote. Anything else is the first glyph of a word. -/
lemma exists_item {column : Nat} {c : Char} {text : List Char} {lexemes : List (Located Lexeme)}
    (h : lexemesFrom (.plain .nothing) column (c :: text) = .ok lexemes) :
    ∃ item rest, c :: text = Item.source item ++ rest ∧ item.WellFormed ∧
      ∀ glyphs, item = .word glyphs → EndsWord rest := by
  -- a word with the glyph at the front
  have hword : ∀ (g : Glyph) (rest : List Char), c :: text = g.source ++ rest → g.InWord →
      ∃ item rest, c :: text = Item.source item ++ rest ∧ item.WellFormed ∧
        ∀ glyphs, item = .word glyphs → EndsWord rest := by
    intro g rest htext hg
    have hg' : Pending.nothing.Admits g := hg
    rw [htext, lexemesFrom_glyph hg'] at h
    obtain ⟨glyphs, rest', rfl, hglyphs, hends⟩ := exists_glyphs (Pending.push_ne_nothing _ _ _) h
    refine ⟨.word (g :: glyphs), rest', by simp [htext, Item.source, glyphSource],
      ⟨by simp, List.forall_mem_cons.2 ⟨hg, hglyphs⟩⟩, fun _ _ => hends⟩
  by_cases hbreak : breaksWord c = true
  · rcases cases_of_breaksWord hbreak with hblank | rfl | rfl | hoperator
    · exact ⟨.blank c, text, rfl, hblank, by simp⟩
    · exact ⟨.opening, text, rfl, trivial, by simp⟩
    · exact ⟨.closing, text, rfl, trivial, by simp⟩
    · obtain ⟨op, rest, hsource⟩ := exists_operator hoperator h
      exact ⟨.operator op, rest, hsource, trivial, by simp⟩
  by_cases hescape : c = '\\'
  · subst hescape
    obtain ⟨rest, hrest⟩ := exists_of_backslash h
    exact hword .quote rest hrest trivial
  by_cases hquote : c = '\''
  · subst hquote
    have hread : ReadState.read (.plain .nothing) column '\'' =
        .ok ([], .plain (.quoted column [])) := rfl
    rw [lexemesFrom_cons_silent hread] at h
    obtain ⟨glyphs, rest, rfl, hglyphs, hends⟩ := exists_glyphs (by simp) h
    obtain ⟨rest, rfl⟩ := List.head?_eq_some_iff.1 hends
    exact ⟨.quoted glyphs, rest, by simp [Item.source], hglyphs, by simp⟩
  · exact hword (.plain c) text rfl ⟨hquote, hescape, Bool.eq_false_iff.2 hbreak⟩

/-- The items of a well-formed piece of text have at least one character. -/
lemma Item.source_ne_nil {item : Item} (h : item.WellFormed) : item.source ≠ [] := by
  cases item with
  | word glyphs =>
    obtain ⟨g, others, rfl⟩ := List.exists_cons_of_ne_nil h.1
    cases g <;> simp [source, glyphSource, Glyph.source]
  | _ => simp [source]

/-- **What is read has items.** A text with lexemes can be taken apart into items.

**Proof sketch.** Strong induction on the length of the text: it begins with an item
(`exists_item`), behind which the rest is read as after nothing (`lexemesFrom_item`). -/
theorem exists_decomposes {column : Nat} {text : List Char} {lexemes : List (Located Lexeme)}
    (h : lexemesFrom (.plain .nothing) column text = .ok lexemes) :
    ∃ items, Decomposes items text := by
  induction hn : text.length using Nat.strong_induction_on generalizing column text lexemes with
  | _ n ih =>
  cases text with
  | nil => exact ⟨[], by simp, .nil, rfl⟩
  | cons c text =>
    obtain ⟨item, rest, hsource, hitem, hword⟩ := exists_item h
    rw [hsource] at h hn ⊢
    rw [lexemesFrom_item hitem hword] at h
    obtain ⟨others, hrest, -⟩ := map_eq_ok_iff.1 h
    have hshorter : rest.length < n := by
      have hpos := List.length_pos_of_ne_nil (Item.source_ne_nil hitem)
      rw [← hn, List.length_append]
      omega
    obtain ⟨items, hitems⟩ := ih rest.length hshorter hrest rfl
    exact ⟨item :: items, hitems.cons hitem hword⟩

/-! ## The lexemes of a rule -/

/-- The lexemes of a rule are those of its items, with their columns. -/
theorem lexemesOf_eq_ok_iff {rule : String} {lexemes : List (Located Lexeme)} :
    lexemesOf rule = .ok lexemes ↔
      ∃ items, Decomposes items rule.toList ∧ lexemes = Item.locate 1 items := by
  constructor
  · intro h
    obtain ⟨items, hitems⟩ := exists_decomposes h
    exact ⟨items, hitems, Except.ok.inj (h.symm.trans (lexemesFrom_decomposes hitems 1))⟩
  · rintro ⟨items, hitems, rfl⟩
    exact lexemesFrom_decomposes hitems 1

/-- A blank text is a sequence of blanks. -/
lemma Decomposes.blanks {text : List Char} (h : ∀ c ∈ text, isBlankChar c = true) :
    Decomposes (text.map .blank) text := by
  induction text with
  | nil => exact ⟨by simp, .nil, rfl⟩
  | cons c text ih =>
    obtain ⟨hc, htext⟩ := List.forall_mem_cons.1 h
    exact .cons hc (ih htext) fun glyphs hword => nomatch hword

/-- Blanks have no lexemes. -/
lemma Item.locate_blanks (column : Nat) (text : List Char) :
    locate column (text.map .blank) = [] := by
  induction text generalizing column with
  | nil => rfl
  | cons c text ih => exact ih _

/-- A blank rule has no lexemes. -/
lemma lexemesOf_of_isBlank {rule : String} (h : isBlank rule = true) : lexemesOf rule = .ok [] :=
  lexemesOf_eq_ok_iff.2 ⟨_, .blanks (List.all_eq_true.1 h), (Item.locate_blanks 1 _).symm⟩

/-- Without their columns, the lexemes of items are those of the items that are no blanks. -/
lemma Item.map_value_locate (column : Nat) (items : List Item) :
    (locate column items).map (·.value) = items.filterMap lexeme? := by
  induction items generalizing column with
  | nil => rfl
  | cons item items ih =>
    simp only [locate, located, List.map_append, List.map_map, ih, List.filterMap_cons]
    cases item.lexeme? <;> simp

/-- **The lexical grammar.** A rule can be cut into lexemes exactly when its text is a sequence of
items, in which no word stands right in front of a word or of a quoted text. Its lexemes are then,
in order, those of the items that are no blanks. -/
theorem isOk_lexemesOf_iff_decomposes (rule : String) :
    ((lexemesOf rule).isOk = true ↔ ∃ items, Decomposes items rule.toList) ∧
      ∀ items, Decomposes items rule.toList →
        ∃ lexemes, lexemesOf rule = .ok lexemes ∧
          lexemes.map (·.value) = items.filterMap Item.lexeme? := by
  have hread : ∀ items, Decomposes items rule.toList →
      lexemesOf rule = .ok (Item.locate 1 items) :=
    fun items hitems => lexemesFrom_decomposes hitems 1
  refine ⟨⟨fun h => ?_, fun ⟨items, hitems⟩ => by rw [hread items hitems]; rfl⟩,
    fun items hitems => ⟨_, hread items hitems, Item.map_value_locate 1 items⟩⟩
  cases hlexemes : lexemesOf rule with
  | ok lexemes => exact exists_decomposes hlexemes
  | error error => rw [hlexemes] at h; cases h

/-- `x=~'it\\'s'`: the quoted text has a quote in it, and follows the operator at once. -/
theorem isOk_lexemesOf_iff_decomposes_escaped :
    Decomposes [.word [.plain 'x'], .operator .startsWith,
        .quoted [.plain 'i', .plain 't', .quote, .plain 's']] "x=~'it\\'s'".toList ∧
      ∃ lexemes, lexemesOf "x=~'it\\'s'" = .ok lexemes ∧
        lexemes.map (·.value) = [.word "x", .operator .startsWith, .quoted "it's"] := by
  have hitems : Decomposes [.word [.plain 'x'], .operator .startsWith,
      .quoted [.plain 'i', .plain 't', .quote, .plain 's']] "x=~'it\\'s'".toList := by decide
  exact ⟨hitems, (isOk_lexemesOf_iff_decomposes _).2 _ hitems⟩

end Targeting
