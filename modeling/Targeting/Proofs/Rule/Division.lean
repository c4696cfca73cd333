import Targeting.Proofs.Rule.Concatenation

/-!
# Texts divided at a blank

A blank ends the word in front of it and is no part of an operator. So a text can be divided at a
blank into two that are cut into lexemes by themselves, unless the blank is between quotes. It is
not if what is behind it can be cut into lexemes: the quotes of such a text that have no backslash
in front come in pairs, and of a pair around the blank only one is behind it.

## Main definitions

* `Targeting.QuotesPaired` — the quotes without a backslash are even in number.

## Main results

* `Targeting.Decomposes.quotesPaired` — in a text with lexemes the quotes come in pairs.
* `Targeting.Spells.of_append_blank` — a text is divided at a blank.
-/

set_option autoImplicit false

namespace Targeting

/-- A text spells no other lexemes. -/
lemma Spells.unique {text : List Char} {lexemes others : List Lexeme} (h : Spells text lexemes)
    (hothers : Spells text others) : lexemes = others := by
  rw [← String.toList_ofList (l := text)] at h hothers
  rw [← h.lexemesIn_eq, hothers.lexemesIn_eq]

/-! ## Pairs of quotes -/

/-- Whether the quotes that have no backslash in front are even in number, where each backslash is
in front of a quote. -/
def QuotesPaired (text : List Char) : Prop := (text.count '\'' + text.count '\\') % 2 = 0

lemma QuotesPaired.append {text rest : List Char} (h : QuotesPaired text)
    (hrest : QuotesPaired rest) : QuotesPaired (text ++ rest) := by
  unfold QuotesPaired at *
  rw [List.count_append, List.count_append]
  omega

lemma QuotesPaired.of_append {text rest : List Char} (h : QuotesPaired (text ++ rest))
    (hrest : QuotesPaired rest) : QuotesPaired text := by
  unfold QuotesPaired at *
  rw [List.count_append, List.count_append] at h
  omega

/-- Neither a quote nor a backslash is a blank. -/
lemma ne_of_isBlankChar {c : Char} (h : isBlankChar c = true) : c ≠ '\'' ∧ c ≠ '\\' := by
  constructor <;> rintro rfl <;> exact absurd h (by decide)

/-- What may stand in a word may stand between quotes. -/
lemma Glyph.InWord.inQuotes {g : Glyph} (h : g.InWord) : g.InQuotes := by
  cases g with
  | plain c => exact ⟨h.1, h.2.1⟩
  | quote => trivial

/-- Each quote in glyphs has a backslash in front. -/
lemma count_glyphSource {glyphs : List Glyph} (h : ∀ g ∈ glyphs, g.InQuotes) :
    (glyphSource glyphs).count '\'' = (glyphSource glyphs).count '\\' := by
  induction glyphs with
  | nil => rfl
  | cons g glyphs ih =>
    obtain ⟨hg, hglyphs⟩ := List.forall_mem_cons.1 h
    have hfirst : g.source.count '\'' = g.source.count '\\' := by
      cases g with
      | plain c => simp [Glyph.source, hg.1, hg.2]
      | quote => decide
    have hsource : glyphSource (g :: glyphs) = g.source ++ glyphSource glyphs := rfl
    rw [hsource, List.count_append, List.count_append, hfirst, ih hglyphs]

/-- The quotes of an item come in pairs. -/
lemma Item.quotesPaired {item : Item} (h : item.WellFormed) : QuotesPaired item.source := by
  unfold QuotesPaired
  cases item with
  | blank c =>
    obtain ⟨hquote, hbackslash⟩ := ne_of_isBlankChar h
    simp [source, hquote, hbackslash]
  | opening | closing => decide
  | operator op => cases op <;> decide
  | word glyphs =>
    rw [source, count_glyphSource fun g hg => (h.2 g hg).inQuotes]
    omega
  | quoted glyphs =>
    have hcount := count_glyphSource h
    simp only [source, List.count_cons, List.count_append, List.count_nil]
    simp only [hcount, beq_self_eq_true, if_true, Char.reduceBEq, Bool.false_eq_true, if_false]
    omega

/-- The quotes of a text that has items come in pairs. -/
lemma Decomposes.quotesPaired {items : List Item} {text : List Char} (h : Decomposes items text) :
    QuotesPaired text := by
  obtain ⟨hwell, -, rfl⟩ := h
  induction items with
  | nil => rfl
  | cons item items ih =>
    obtain ⟨hitem, hitems⟩ := List.forall_mem_cons.1 hwell
    rw [List.flatMap_cons]
    exact (Item.quotesPaired hitem).append (ih hitems)

/-- Behind a blank between quotes, one more quote has no backslash in front.

**Proof sketch.** Induction on the glyphs. A plain glyph is the blank itself, and then the remaining
glyphs have as many quotes as backslashes and the last quote is the one more; or it lies in front of
the blank and the rest decides. A quote with its backslash lies in front of it, since neither is a
blank. -/
lemma count_of_glyphSource_append {glyphs : List Glyph} (h : ∀ g ∈ glyphs, g.InQuotes) {c : Char}
    (hc : isBlankChar c = true) {front behind : List Char}
    (hcut : glyphSource glyphs ++ ['\''] = front ++ c :: behind) :
    behind.count '\'' = behind.count '\\' + 1 := by
  obtain ⟨hquote, hbackslash⟩ := ne_of_isBlankChar hc
  induction glyphs generalizing front with
  | nil =>
    cases front with
    | nil => exact absurd (List.cons.inj hcut).1.symm hquote
    | cons d front => simp [glyphSource] at hcut
  | cons g glyphs ih =>
    obtain ⟨-, hglyphs⟩ := List.forall_mem_cons.1 h
    cases g with
    | plain d =>
      change d :: (glyphSource glyphs ++ ['\'']) = _ at hcut
      cases front with
      | nil =>
        obtain ⟨-, rfl⟩ := List.cons.inj hcut
        rw [List.count_append, List.count_append, count_glyphSource hglyphs]
        rfl
      | cons e front => exact ih hglyphs (List.cons.inj hcut).2
    | quote =>
      -- the blank is neither of the two characters of the glyph
      cases front with
      | nil => exact absurd (List.cons.inj hcut).1.symm hbackslash
      | cons e front =>
        cases front with
        | nil => exact absurd (List.cons.inj (List.cons.inj hcut).2).1.symm hquote
        | cons e' front => exact ih hglyphs (List.cons.inj (List.cons.inj hcut).2).2

/-! ## Division -/

/-- An item that goes on over a blank, and that does not begin with it, is a quoted text.

**Proof sketch.** By cases on the item. Blanks and parentheses are of one character, which is in
front. The characters of an operator are no blanks, and a word has none either, since a blank would
end it. -/
lemma Item.eq_quoted_of_source {item : Item} (h : item.WellFormed) {c : Char}
    (hc : isBlankChar c = true) {front behind : List Char} (hfront : front ≠ [])
    (hcut : item.source = front ++ c :: behind) : ∃ glyphs, item = .quoted glyphs := by
  obtain ⟨first, front, rfl⟩ := List.exists_cons_of_ne_nil hfront
  cases item with
  | blank | opening | closing => simp [source] at hcut
  | quoted glyphs => exact ⟨glyphs, rfl⟩
  | operator op =>
    have hmem : c ∈ (operator op).source := by simp [hcut]
    have hoperator : Operator.isOperatorChar c = true := by
      cases op <;> simp only [source, Operator.chars, List.mem_cons, List.not_mem_nil, or_false]
        at hmem <;> rcases hmem with rfl | rfl <;> decide
    simp only [Operator.isOperatorChar, Bool.or_eq_true, decide_eq_true_eq] at hoperator
    rcases hoperator with (((rfl | rfl) | rfl) | rfl) | rfl <;> exact absurd hc (by decide)
  | word glyphs =>
    have hmem : c ∈ glyphSource glyphs := by
      rw [← show (word glyphs).source = glyphSource glyphs from rfl, hcut]
      simp
    obtain ⟨g, hg, hchar⟩ := List.mem_flatMap.1 hmem
    obtain ⟨hquote, hbackslash⟩ := ne_of_isBlankChar hc
    cases g with
    | plain d =>
      obtain rfl : c = d := List.mem_singleton.1 hchar
      have hbreak : breaksWord c = false := (h.2 _ hg).2.2
      simp [breaksWord, hc] at hbreak
    | quote => simp [Glyph.source, hquote, hbackslash] at hchar

/-- Where an item goes on over a blank, and does not begin with it, the quotes behind the blank do
not come in pairs. -/
lemma Item.not_quotesPaired_of_source {item : Item} (h : item.WellFormed) {c : Char}
    (hc : isBlankChar c = true) {front behind : List Char} (hfront : front ≠ [])
    (hcut : item.source = front ++ c :: behind) : ¬ QuotesPaired behind := by
  obtain ⟨glyphs, rfl⟩ := eq_quoted_of_source h hc hfront hcut
  obtain ⟨first, front, rfl⟩ := List.exists_cons_of_ne_nil hfront
  have hcount := count_of_glyphSource_append h hc (List.cons.inj hcut).2
  unfold QuotesPaired
  omega

/-- **A text is divided at a blank.** If what is behind a blank has lexemes of its own, then so has
what is in front of it, and together they are the lexemes of the text.

**Proof sketch.** Induction on the items of the text. Items in front of the blank are those of the
first part. The item that has the blank inside would be a quoted text, and then one quote behind the
blank would have no other one to make a pair with. -/
theorem Spells.of_append_blank {c : Char} (hc : isBlankChar c = true) {front behind : List Char}
    {lexemes others : List Lexeme} (h : Spells (front ++ c :: behind) lexemes)
    (hbehind : Spells behind others) : ∃ first, Spells front first ∧ lexemes = first ++ others := by
  obtain ⟨items, hitems, rfl⟩ := h
  induction items generalizing front with
  | nil => exact absurd hitems.source.symm (by simp)
  | cons item items ih =>
    by_cases hfront : front = []
    · subst hfront
      exact ⟨[], .nil, Spells.unique ⟨_, hitems, rfl⟩ (hbehind.blank hc)⟩
    obtain ⟨rest, hsource, hitem, hrest, hword⟩ := hitems.of_cons
    -- the item ends in front of the blank
    obtain ⟨remaining, rfl, rfl⟩ : ∃ remaining,
        front = item.source ++ remaining ∧ rest = remaining ++ c :: behind := by
      rcases List.append_eq_append_iff.1 hsource with ⟨inside, hinside, hrest'⟩ | hends
      · cases inside with
        | nil => exact ⟨[], by simp [hinside], hrest'.symm⟩
        | cons d inside =>
          obtain ⟨rfl, rfl⟩ := List.cons.inj hrest'
          obtain ⟨_, hpaired, -⟩ := hbehind
          have hodd := Item.not_quotesPaired_of_source hitem hc hfront hinside
          exact absurd (hpaired.quotesPaired.of_append hrest.quotesPaired) hodd
      · exact hends
    obtain ⟨first, hfirst, hlexemes⟩ := ih hrest
    have hends : ∀ glyphs, item = .word glyphs → EndsWord remaining := by
      intro glyphs hglyphs
      cases remaining with
      | nil => trivial
      | cons d remaining => exact hword glyphs hglyphs
    refine ⟨item.lexeme?.toList ++ first, hfirst.cons item hitem hends, ?_⟩
    rw [List.filterMap_cons, List.append_assoc, ← hlexemes]
    cases item.lexeme? <;> rfl

end Targeting
