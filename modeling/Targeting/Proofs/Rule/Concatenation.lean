import Targeting.Proofs.Rule.LexicalGrammar

/-!
# Texts put together

What the lexemes of a text are, when the text is put together from others. Two texts that stand one
behind the other keep their lexemes if the second one lets a word end: then no word of the first one
goes on in the second, and none touches a word or a quoted text there.

## Main definitions

* `Targeting.Spells`, `Targeting.lexemesIn` — the lexemes of a text, without columns.

## Main results

* `Targeting.spells_iff` — a text spells the lexemes that it is cut into.
* `Targeting.Spells.append` — a text in front of another one.
* `Targeting.spells_intercalate` — texts with an operator between neighbours.
* `Targeting.spells_quoteText`, `Targeting.spells_word_iff` — which texts are one quoted text, and
  which are one word of the same characters.
-/

set_option autoImplicit false

namespace Targeting

/-! ## Items one behind the other -/

/-- Whether a first text lets a word end, or else the one behind it. -/
lemma EndsWord.append {text rest : List Char} (h : EndsWord text) (hrest : EndsWord rest) :
    EndsWord (text ++ rest) := by
  cases text with
  | nil => exact hrest
  | cons c text => exact h

/-- The items of a text and those of a text behind it, if the latter lets a word end.

**Proof sketch.** Induction on the first items. What stands behind a word of the first text lets it
end, be it more of this text or all of the second one. -/
lemma Decomposes.append {items others : List Item} {text rest : List Char}
    (h : Decomposes items text) (hrest : Decomposes others rest) (hends : EndsWord rest) :
    Decomposes (items ++ others) (text ++ rest) := by
  induction items generalizing text with
  | nil =>
    obtain rfl : [] = text := h.source
    exact hrest
  | cons item items ih =>
    obtain ⟨behind, rfl, hitem, hitems, hword⟩ := h.of_cons
    rw [List.append_assoc]
    exact .cons hitem (ih hitems) fun glyphs hglyphs => (hword glyphs hglyphs).append hends

/-! ## Lexemes of a text -/

/-- Whether a text has certain lexemes, wherever they stand. -/
def Spells (text : List Char) (lexemes : List Lexeme) : Prop :=
  ∃ items, Decomposes items text ∧ items.filterMap Item.lexeme? = lexemes

/-- A rule spells the lexemes that it is cut into. -/
theorem spells_iff {rule : String} {lexemes : List Lexeme} :
    Spells rule.toList lexemes ↔
      ∃ located, lexemesOf rule = .ok located ∧ located.map (·.value) = lexemes := by
  constructor
  · rintro ⟨items, hitems, rfl⟩
    exact (isOk_lexemesOf_iff_decomposes rule).2 items hitems
  · rintro ⟨located, h, rfl⟩
    obtain ⟨items, hitems, rfl⟩ := lexemesOf_eq_ok_iff.1 h
    exact ⟨items, hitems, (Item.map_value_locate 1 items).symm⟩

/-- The lexemes of a text, wherever they stand; a text that cannot be cut into lexemes has none. -/
def lexemesIn (text : String) : List Lexeme :=
  ((lexemesOf text).toOption.getD []).map (·.value)

namespace Spells

variable {text rest : List Char} {lexemes others : List Lexeme}

/-- What a text spells are its lexemes. -/
lemma lexemesIn_eq {text : String} (h : Spells text.toList lexemes) : lexemesIn text = lexemes := by
  obtain ⟨located, hlocated, rfl⟩ := spells_iff.1 h
  rw [lexemesIn, hlocated]
  rfl

/-- The empty text has no lexemes. -/
lemma nil : Spells [] [] := ⟨[], ⟨by simp, .nil, rfl⟩, rfl⟩

/-- An item in front of a text, if the text lets a word end. -/
lemma cons (item : Item) (hitem : item.WellFormed) (h : Spells rest lexemes)
    (hword : ∀ glyphs, item = .word glyphs → EndsWord rest) :
    Spells (item.source ++ rest) (item.lexeme?.toList ++ lexemes) := by
  obtain ⟨items, hitems, rfl⟩ := h
  refine ⟨item :: items, hitems.cons hitem hword, ?_⟩
  rw [List.filterMap_cons]
  cases item.lexeme? <;> rfl

/-- The lexemes of a text behind an item are the others of those that both have together. -/
lemma of_item {item : Item} (hitem : item.WellFormed)
    (hword : ∀ glyphs, item = .word glyphs → EndsWord rest)
    (h : Spells (item.source ++ rest) lexemes) :
    ∃ others, lexemes = item.lexeme?.toList ++ others ∧ Spells rest others := by
  obtain ⟨items, hitems, rfl⟩ := h
  have hread := lexemesFrom_decomposes hitems 1
  rw [lexemesFrom_item hitem hword] at hread
  obtain ⟨located, hlocated, hlexemes⟩ := map_eq_ok_iff.1 hread
  obtain ⟨behind, hbehind⟩ := exists_decomposes hlocated
  refine ⟨_, ?_, behind, hbehind, rfl⟩
  -- both sides are the lexemes of the whole text, read in two ways
  obtain rfl := Except.ok.inj (hlocated.symm.trans (lexemesFrom_decomposes hbehind _))
  have hvalues := congrArg (List.map (·.value)) hlexemes
  rw [List.map_append, Item.map_value_locate, Item.map_value_locate] at hvalues
  rw [← hvalues, Item.located, List.map_map]
  cases item.lexeme? <;> rfl

/-- A blank in front of a text. -/
lemma blank {c : Char} (hc : isBlankChar c = true) (h : Spells rest lexemes) :
    Spells (c :: rest) lexemes :=
  h.cons (.blank c) hc fun _ hword => nomatch hword

/-- An opening parenthesis in front of a text. -/
lemma opening (h : Spells rest lexemes) : Spells ('(' :: rest) (.opening :: lexemes) :=
  h.cons .opening trivial fun _ hword => nomatch hword

/-- A closing parenthesis in front of a text. -/
lemma closing (h : Spells rest lexemes) : Spells (')' :: rest) (.closing :: lexemes) :=
  h.cons .closing trivial fun _ hword => nomatch hword

/-- An operator in front of a text. -/
lemma operator (op : Operator) (h : Spells rest lexemes) :
    Spells (op.symbol.toList ++ rest) (.operator op :: lexemes) := by
  rw [Operator.symbol, String.toList_ofList]
  exact h.cons (.operator op) trivial fun _ hword => nomatch hword

/-- A text in front of one that lets a word end. -/
lemma append (h : Spells text lexemes) (hrest : Spells rest others) (hends : EndsWord rest) :
    Spells (text ++ rest) (lexemes ++ others) := by
  obtain ⟨items, hitems, rfl⟩ := h
  obtain ⟨behind, hbehind, rfl⟩ := hrest
  exact ⟨items ++ behind, hitems.append hbehind hends, List.filterMap_append⟩

end Spells

/-- A blank lets a word end. -/
lemma endsWord_blank (rest : List Char) : EndsWord (' ' :: rest) := by
  change breaksWord ' ' = true
  decide

/-- Two texts with an operator between them, which has a blank on both sides. -/
lemma Spells.joined {text rest : List Char} {lexemes others : List Lexeme} (op : Operator)
    (h : Spells text lexemes) (hrest : Spells rest others) :
    Spells (text ++ ((" " ++ op.symbol ++ " ").toList ++ rest))
      (lexemes ++ .operator op :: others) := by
  have hblank : isBlankChar ' ' = true := by decide
  have hsource : (" " ++ op.symbol ++ " ").toList ++ rest =
      ' ' :: (op.symbol.toList ++ ' ' :: rest) := by
    simp
  rw [hsource]
  exact h.append (.blank hblank (.operator op (.blank hblank hrest))) (endsWord_blank _)

/-- Texts with an operator between neighbours. -/
theorem spells_intercalate {α : Type} {text : α → String} {lexemes : α → List Lexeme}
    (op : Operator) (first : α) (rest : List α)
    (h : ∀ a ∈ first :: rest, Spells (text a).toList (lexemes a)) :
    Spells ((" " ++ op.symbol ++ " ").intercalate ((first :: rest).map text)).toList
      (lexemes first ++ rest.flatMap fun a => .operator op :: lexemes a) := by
  induction rest generalizing first with
  | nil => simpa using h first (List.mem_cons_self ..)
  | cons second rest ih =>
    obtain ⟨hfirst, hothers⟩ := List.forall_mem_cons.1 h
    have hjoined := Spells.joined op hfirst (ih second hothers)
    rw [List.map_cons, List.map_cons, String.intercalate_cons_cons, String.toList_append,
      String.toList_append, List.append_assoc]
    exact hjoined

/-! ## Quoted texts -/

/-- The glyph in which a character is written between quotes. -/
def Glyph.ofChar (c : Char) : Glyph := if c = '\'' then quote else plain c

/-- Quoting writes a text in glyphs. -/
lemma toList_quoteText (text : String) :
    (quoteText text).toList = (Item.quoted (text.toList.map Glyph.ofChar)).source := by
  have hsource : ∀ c : Char, (if c = '\'' then ['\\', c] else [c]) = (Glyph.ofChar c).source := by
    intro c
    by_cases hquote : c = '\''
    · simp [Glyph.ofChar, hquote, Glyph.source]
    · simp [Glyph.ofChar, hquote, Glyph.source]
  simp [quoteText, Item.source, glyphSource, hsource, List.flatMap_map]

/-- The glyphs of a text stand for the text. -/
lemma glyphText_map_ofChar (text : String) : glyphText (text.toList.map Glyph.ofChar) = text := by
  have hchar : Glyph.char ∘ Glyph.ofChar = id := by
    funext c
    by_cases hquote : c = '\''
    · simp [Glyph.ofChar, hquote, Glyph.char]
    · simp [Glyph.ofChar, hquote, Glyph.char]
  rw [glyphText, List.map_map, hchar, List.map_id, String.ofList_toList]

/-- A text without backslashes is written between quotes as the grammar has it. -/
lemma wellFormed_quoted_ofChar {text : String} (h : '\\' ∉ text.toList) :
    (Item.quoted (text.toList.map Glyph.ofChar)).WellFormed := by
  intro g hg
  obtain ⟨c, hc, rfl⟩ := List.mem_map.1 hg
  by_cases hquote : c = '\''
  · simp [Glyph.ofChar, hquote, Glyph.InQuotes]
  · have hescape : c ≠ '\\' := fun heq => h (heq ▸ hc)
    simp [Glyph.ofChar, hquote, Glyph.InQuotes, hescape]

/-- A text without backslashes is spelled between quotes, in front of any text. -/
lemma spells_quoteText {text : String} (h : '\\' ∉ text.toList) {rest : List Char}
    {lexemes : List Lexeme} (hrest : Spells rest lexemes) :
    Spells ((quoteText text).toList ++ rest) (.quoted text :: lexemes) := by
  have hitem := hrest.cons _ (wellFormed_quoted_ofChar h) fun _ hword => nomatch hword
  rw [toList_quoteText]
  simpa [Item.lexeme?, glyphText_map_ofChar] using hitem

/-! ## Words -/

/-- Whether a text can stand in a rule as a word of the same characters. -/
def IsPlainWord (word : String) : Prop := word ≠ "" ∧ ∀ c ∈ word.toList, (Glyph.plain c).InWord

-- the characters of the word are run through, not all that there are
instance : DecidablePred IsPlainWord := fun word =>
  @instDecidableAnd (word ≠ "") (∀ c ∈ word.toList, (Glyph.plain c).InWord) _
    (List.decidableBAll _ _)

/-- A plain word is written as the grammar has it. -/
lemma IsPlainWord.wellFormed {word : String} (h : IsPlainWord word) :
    (Item.word (word.toList.map .plain)).WellFormed := by
  refine ⟨by simpa using h.1, fun g hg => ?_⟩
  obtain ⟨c, hc, rfl⟩ := List.mem_map.1 hg
  exact h.2 c hc

/-- Plain characters are written as they are. -/
lemma glyphSource_map_plain (text : List Char) : glyphSource (text.map .plain) = text := by
  simp [glyphSource, Glyph.source, List.flatMap_map]

/-- Plain characters stand for themselves. -/
lemma glyphText_map_plain (text : String) : glyphText (text.toList.map .plain) = text := by
  simp [glyphText, Glyph.char, Function.comp_def]

/-- Glyphs that are written as the characters that they stand for are these characters. -/
lemma eq_map_plain_of_glyphSource {glyphs : List Glyph} {rest rest' : List Char}
    (h : glyphSource glyphs ++ rest = glyphs.map Glyph.char ++ rest') :
    glyphs = (glyphs.map Glyph.char).map .plain ∧ rest = rest' := by
  induction glyphs with
  | nil => exact ⟨rfl, h⟩
  | cons g glyphs ih =>
    cases g with
    | quote => exact absurd (List.cons.inj h).1 (by decide)
    | plain c =>
      obtain ⟨hglyphs, hrest⟩ := ih (List.cons.inj h).2
      exact ⟨congrArg (Glyph.plain c :: ·) hglyphs, hrest⟩

/-- A word that a text spells is not empty and has no blank in it.

**Proof sketch.** The word is that of an item with glyphs, of which there is one at least. A glyph
is a quote, which is no blank, or a character that breaks no word. -/
lemma Spells.word_of_mem {text : List Char} {lexemes : List Lexeme} (h : Spells text lexemes)
    {word : String} (hmem : .word word ∈ lexemes) :
    word ≠ "" ∧ ∀ c ∈ word.toList, isBlankChar c = false := by
  obtain ⟨items, hitems, rfl⟩ := h
  obtain ⟨item, hitem, hlexeme⟩ := List.mem_filterMap.1 hmem
  cases item with
  | word glyphs =>
    obtain ⟨hne, hglyphs⟩ := hitems.wellFormed _ hitem
    obtain rfl : glyphText glyphs = word := by simpa [Item.lexeme?] using hlexeme
    refine ⟨by simpa [glyphText] using hne, fun c hc => ?_⟩
    rw [glyphText, String.toList_ofList] at hc
    obtain ⟨g, hg, rfl⟩ := List.mem_map.1 hc
    cases g with
    | quote => decide
    | plain c =>
      have hbreak := (hglyphs _ hg).2.2
      simp only [breaksWord, Bool.or_eq_false_iff] at hbreak
      exact hbreak.1.1.1
  | _ => cases hlexeme

/-- **Which words are written as they are.** In front of a text that lets a word end, a text is read
as the word of its own characters exactly when each of them may stand in a word by itself.

**Proof sketch.** If a quote were among the characters, the glyphs of the word would begin to differ
from its characters there; and as no word has a blank in it, no blank comes before the word. -/
theorem spells_word_iff {word : String} {rest : List Char} {lexemes : List Lexeme}
    (hends : EndsWord rest) :
    Spells (word.toList ++ rest) (.word word :: lexemes) ↔
      IsPlainWord word ∧ Spells rest lexemes := by
  constructor
  · intro h
    obtain ⟨hne, hblank⟩ := h.word_of_mem (List.mem_cons_self ..)
    obtain ⟨items, hitems, hlexemes⟩ := h
    cases items with
    | nil => cases hlexemes
    | cons item items =>
      obtain ⟨behind, hsource, hitem, hbehind, -⟩ := hitems.of_cons
      cases item with
      | word glyphs =>
        -- glyphs that write the same characters as they stand for are all plain
        obtain ⟨hword, hothers⟩ :
            glyphText glyphs = word ∧ items.filterMap Item.lexeme? = lexemes :=
          by simpa [Item.lexeme?] using hlexemes
        have hchars : glyphs.map Glyph.char = word.toList := by rw [← hword]; simp [glyphText]
        rw [Item.source, ← hchars] at hsource
        obtain ⟨hglyphs, rfl⟩ := eq_map_plain_of_glyphSource hsource.symm
        refine ⟨⟨hne, fun c hc => ?_⟩, items, hbehind, hothers⟩
        rw [hchars] at hglyphs
        exact hitem.2 _ (hglyphs ▸ List.mem_map_of_mem hc)
      | blank c =>
        -- a blank would be the first character of the word
        have hne : word.toList ≠ [] := by simpa using hne
        obtain ⟨first, chars, hchars⟩ := List.exists_cons_of_ne_nil hne
        rw [hchars] at hsource hblank
        obtain rfl : first = c := (List.cons.inj hsource).1
        have hfirst : isBlankChar first = true := hitem
        rw [hblank first (List.mem_cons_self ..)] at hfirst
        cases hfirst
      | _ => cases hlexemes
  · rintro ⟨hplain, hrest⟩
    have hword := hrest.cons _ hplain.wellFormed fun _ _ => hends
    simpa [Item.source, Item.lexeme?, glyphSource_map_plain, glyphText_map_plain] using hword

end Targeting
