import Targeting.Proofs.Rule.Concatenation
import Targeting.Proofs.Rule.FaultOrigin

/-!
# The columns of lexemes

How a text is cut into lexemes does not depend on where it stands: if it is moved to the right, the
columns of its lexemes and of its first fault move with it. So two texts with a blank between them
are read one after the other, and what is read of the second one is what it has by itself, moved by
all that is in front of it. In particular, a text that can be read leaves nothing behind: no word,
quoted text or backslash of it goes on in the second text.

The column of a lexeme is a place where the text can be cut. What begins there has the lexemes from
this one on, with one exception: the column of a word that begins with a quote is that of the quote,
and the backslash in front of it is part of the word. Such a text has to be cut one column earlier;
from its column on, it begins with a quote and is read as a quoted text.

## Main definitions

* `Targeting.Located.moved`, `Targeting.RuleError.moved` — pieces and errors further to the right.
* `Targeting.fromColumn` — the part of a text that begins at a column.
* `Targeting.Lexeme.beginsWithQuote` — words that begin with a quote.

## Main results

* `Targeting.lexemesFrom_moved` — a text is read alike wherever it stands.
* `Targeting.lexemesFrom_append` — a text is read on behind one that can be read.
* `Targeting.lexemesOf_append_blank` — two texts with a blank between them.
* `Targeting.lexemesOf_fromColumn` — the part of a text that begins at the column of a lexeme.
-/

set_option autoImplicit false

namespace Targeting

/-! ## Moving -/

/-- A piece of a rule, a number of columns further to the right. -/
def Located.moved {α : Type} (count : Nat) (piece : Located α) : Located α :=
  ⟨piece.value, piece.column + count⟩

/-- An error, a number of columns further to the right. -/
def RuleError.moved (count : Nat) (error : RuleError) : RuleError :=
  ⟨error.fault, error.column + count⟩

/-- A pending lexeme, a number of columns further to the right. -/
def Pending.moved (count : Nat) : Pending → Pending
  | nothing => nothing
  | word start chars => word (start + count) chars
  | quoted start chars => quoted (start + count) chars

/-- What has been read, a number of columns further to the right. -/
def ReadState.moved (count : Nat) : ReadState → ReadState
  | plain pending => plain (pending.moved count)
  | escaping pending => escaping (pending.moved count)
  | operator first start => operator first (start + count)

namespace Pending

variable (count : Nat) (pending : Pending)

/-- A pending lexeme is moved with its next character. -/
@[simp] lemma push_moved (column : Nat) (c : Char) :
    (pending.moved count).push (column + count) c = (pending.push column c).moved count := by
  cases pending <;> rfl

/-- Moving leaves a quoted text a quoted text. -/
@[simp] lemma isQuoted_moved : (pending.moved count).isQuoted = pending.isQuoted := by
  cases pending <;> rfl

/-- A pending word is moved as a lexeme. -/
@[simp] lemma flush_moved : (pending.moved count).flush = pending.flush.map (·.moved count) := by
  cases pending <;> rfl

end Pending

namespace ReadState

variable (count : Nat)

/-- What is read of a character moves with it, where nothing special precedes it. -/
lemma readPlain_moved (pending : Pending) (column : Nat) (c : Char) :
    readPlain (pending.moved count) (column + count) c =
      ((readPlain pending column c).map fun next =>
        (next.1.map (·.moved count), next.2.moved count)).mapError (·.moved count) := by
  simp only [readPlain, Pending.isQuoted_moved, Pending.push_moved, Pending.flush_moved]
  split_ifs with _ hquote
  · rfl
  · cases pending <;> rfl
  all_goals simp [Except.map, Except.mapError, moved, Pending.moved, Located.moved]

/-- What is read of a character moves with it. -/
lemma read_moved (state : ReadState) (column : Nat) (c : Char) :
    (state.moved count).read (column + count) c =
      ((state.read column c).map fun next =>
        (next.1.map (·.moved count), next.2.moved count)).mapError (·.moved count) := by
  cases state with
  | plain pending => exact readPlain_moved count pending column c
  | escaping pending =>
    simp only [moved, read, Pending.push_moved]
    split_ifs <;> rfl
  | operator first start =>
    simp only [moved, read]
    split <;> rfl

/-- What the end of a text yields moves with it. -/
lemma finish_moved (state : ReadState) {column : Nat} (hcolumn : 1 ≤ column) :
    (state.moved count).finish (column + count) =
      ((state.finish column).map (List.map (·.moved count))).mapError (·.moved count) := by
  have hlast : column + count - 1 = column - 1 + count := by omega
  cases state with
  | plain pending => cases pending <;> rfl
  | escaping pending =>
    cases pending with
    | quoted start chars => rfl
    | nothing | word =>
      simp only [moved, Pending.moved, finish, hlast]
      rfl
  | operator first start => rfl

end ReadState

/-- **A text is read alike wherever it stands.** Its lexemes and its first fault move with it.

**Proof sketch.** Induction on the text: what is read of one character moves with it
(`ReadState.read_moved`), and so does what is pending when the next one comes. -/
theorem lexemesFrom_moved (count : Nat) (state : ReadState) {column : Nat} (hcolumn : 1 ≤ column)
    (text : List Char) :
    lexemesFrom (state.moved count) (column + count) text =
      ((lexemesFrom state column text).map (List.map (·.moved count))).mapError
        (·.moved count) := by
  induction text generalizing state column with
  | nil => exact state.finish_moved count hcolumn
  | cons c rest ih =>
    rw [lexemesFrom, lexemesFrom, ReadState.read_moved]
    cases state.read column c with
    | error error => rfl
    | ok next =>
      obtain ⟨lexemes, next⟩ := next
      have hrest := ih next (Nat.le_add_left 1 column)
      rw [Nat.add_right_comm] at hrest
      change lexemesFrom (next.moved count) (column + count + 1) rest >>= _ = _
      rw [hrest]
      change _ = ((lexemesFrom next (column + 1) rest >>= _).map _).mapError _
      cases lexemesFrom next (column + 1) rest with
      | error error => rfl
      | ok others =>
        apply congrArg Except.ok
        exact (List.map_append).symm

/-! ## Two texts -/

/-- **A text is read on behind one that can be read.** In front of a text that lets a word end, the
first text has the lexemes that it has by itself, and the second one is read as after nothing.

**Proof sketch.** Induction on the items of the first text (`lexemesFrom_item`). What is behind a
word lets it end, be it more of the first text or the second one. -/
theorem lexemesFrom_append {items : List Item} {text rest : List Char} (h : Decomposes items text)
    (hends : EndsWord rest) (column : Nat) :
    lexemesFrom (.plain .nothing) column (text ++ rest) =
      (lexemesFrom (.plain .nothing) (column + text.length) rest).map
        (Item.locate column items ++ ·) := by
  induction items generalizing text column with
  | nil =>
    obtain rfl : [] = text := h.source
    rw [List.nil_append, List.length_nil, Nat.add_zero]
    cases lexemesFrom (.plain .nothing) column rest <;> rfl
  | cons item items ih =>
    obtain ⟨behind, rfl, hitem, hitems, hword⟩ := h.of_cons
    have hword' : ∀ glyphs, item = .word glyphs → EndsWord (behind ++ rest) :=
      fun glyphs hglyphs => (hword glyphs hglyphs).append hends
    have hlength : column + (item.source ++ behind).length =
        column + item.source.length + behind.length := by
      rw [List.length_append]
      omega
    rw [List.append_assoc, lexemesFrom_item hitem hword', ih hitems, hlength]
    cases lexemesFrom (.plain .nothing) (column + item.source.length + behind.length) rest with
    | error error => rfl
    | ok others => exact congrArg Except.ok (List.append_assoc _ _ _).symm

/-- A text behind another one and a blank is read as by itself, but moved to the right. -/
lemma lexemesOf_append_blank_eq {text : String} {lexemes : List (Located Lexeme)}
    (h : lexemesOf text = .ok lexemes) (rest : String) :
    lexemesOf (text ++ " " ++ rest) =
      (((lexemesOf rest).map (List.map (·.moved (text.length + 1)))).mapError
        (·.moved (text.length + 1))).map (lexemes ++ ·) := by
  obtain ⟨items, hitems, rfl⟩ := lexemesOf_eq_ok_iff.1 h
  have htext : (text ++ " " ++ rest).toList = text.toList ++ ' ' :: rest.toList := by simp
  have hblank : ReadState.read (.plain .nothing) (1 + text.length) ' ' =
      .ok ([], .plain .nothing) := read_blank rfl (by decide) _
  have hmoved := lexemesFrom_moved (text.length + 1) (.plain .nothing) (Nat.le_refl 1) rest.toList
  rw [lexemesOf, htext, lexemesFrom_append hitems (endsWord_blank _), String.length_toList,
    lexemesFrom_cons_silent hblank, Nat.add_assoc, lexemesOf, ← hmoved]
  rfl

/-- **Texts are read one after the other.** Behind a text that can be read and a blank, a text that
can be read adds its own lexemes, and any other text fails with its own fault; columns are moved by
what is in front. -/
theorem lexemesOf_append_blank {text : String} {lexemes : List (Located Lexeme)}
    (h : lexemesOf text = .ok lexemes) (rest : String) :
    (∀ others, lexemesOf rest = .ok others →
      lexemesOf (text ++ " " ++ rest) =
        .ok (lexemes ++ others.map (·.moved (text.length + 1)))) ∧
    ∀ error, lexemesOf rest = .error error →
      lexemesOf (text ++ " " ++ rest) = .error (error.moved (text.length + 1)) := by
  have heq := lexemesOf_append_blank_eq h rest
  constructor
  · intro others hothers
    rw [heq, hothers]
    rfl
  · intro error herror
    rw [heq, herror]
    rfl

/-- `Role=='it\\'s'` in front of a text with an operator, and of one that is at fault in its last
character: this is the 16th column. -/
theorem lexemesOf_append_blank_escaped :
    let lexemes : List (Located Lexeme) :=
      [⟨.word "Role", 1⟩, ⟨.operator .equal, 5⟩, ⟨.quoted "it's", 7⟩]
    lexemesOf "Role=='it\\'s'" = .ok lexemes ∧
      lexemesOf "&& \\'x" = .ok [⟨.operator .and, 1⟩, ⟨.word "'x", 5⟩] ∧
      lexemesOf "Role=='it\\'s' && \\'x" =
        .ok (lexemes ++ [⟨.operator .and, 15⟩, ⟨.word "'x", 19⟩]) ∧
      lexemesOf "x\\" = .error ⟨.invalidEscape, 2⟩ ∧
      lexemesOf "Role=='it\\'s' x\\" = .error ⟨.invalidEscape, 16⟩ := by
  intro lexemes
  have hfirst : lexemesOf "Role=='it\\'s'" = .ok lexemes := by
    rw [← toOption_eq_some_iff]
    decide
  have hrest : lexemesOf "&& \\'x" = .ok [⟨.operator .and, 1⟩, ⟨.word "'x", 5⟩] := by
    rw [← toOption_eq_some_iff]
    decide
  have hfault : lexemesOf "x\\" = .error ⟨.invalidEscape, 2⟩ := rfl
  exact ⟨hfirst, hrest, (lexemesOf_append_blank hfirst _).1 _ hrest, hfault,
    (lexemesOf_append_blank hfirst _).2 _ hfault⟩

/-! ## Parts of a text -/

/-- The part of a text that begins at a column. -/
def fromColumn (text : String) (column : Nat) : String :=
  String.ofList (text.toList.drop (column - 1))

/-- Whether a lexeme is a word that begins with a quote. -/
def Lexeme.beginsWithQuote : Lexeme → Bool
  | word text => text.toList.head? == some '\''
  | _ => false

namespace Item

/-- The column of the lexeme of an item is that of its first character, but for a word that begins
with a quote. -/
lemma place_eq {item : Item} (h : item.WellFormed) {lexeme : Lexeme}
    (hlexeme : item.lexeme? = some lexeme) (column : Nat) :
    item.place column = if lexeme.beginsWithQuote then column + 1 else column := by
  cases item with
  | blank c => cases hlexeme
  | opening | closing | operator | quoted =>
    cases hlexeme
    rfl
  | word glyphs =>
    cases hlexeme
    obtain ⟨hne, hglyphs⟩ := h
    obtain ⟨g, glyphs, rfl⟩ := List.exists_cons_of_ne_nil hne
    cases g with
    | quote => simp [place, Glyph.place, Lexeme.beginsWithQuote, glyphText, Glyph.char]
    | plain c =>
      have hquote : c ≠ '\'' := (hglyphs (.plain c) (List.mem_cons_self ..)).1
      simp [place, Glyph.place, Lexeme.beginsWithQuote, glyphText, Glyph.char, hquote]

/-- The lexeme of an item stands at one of its characters. -/
lemma place_mem {item : Item} (h : item.WellFormed) (column : Nat) :
    column ≤ item.place column ∧ item.place column < column + item.source.length := by
  have hlength := List.length_pos_of_ne_nil (source_ne_nil h)
  cases item with
  | word glyphs =>
    obtain ⟨g, glyphs, rfl⟩ := List.exists_cons_of_ne_nil h.1
    cases g with
    | plain c =>
      simp only [place, Glyph.place]
      omega
    | quote =>
      simp only [place, Glyph.place, source, glyphSource, List.flatMap_cons, Glyph.source,
        List.length_append, List.length_cons, List.length_nil]
      omega
  | blank | opening | closing | operator | quoted =>
    simp only [place]
    omega

/-- The lexemes of items stand at the columns of their characters. -/
lemma le_column_of_mem_locate {items : List Item} (h : ∀ item ∈ items, item.WellFormed)
    {column : Nat} {lexeme : Located Lexeme} (hlexeme : lexeme ∈ locate column items) :
    column ≤ lexeme.column := by
  induction items generalizing column with
  | nil => cases hlexeme
  | cons item items ih =>
    obtain ⟨hitem, hitems⟩ := List.forall_mem_cons.1 h
    rcases List.mem_append.1 hlexeme with hhere | hbehind
    · obtain ⟨_, -, rfl⟩ := List.mem_map.1 hhere
      exact (place_mem hitem column).1
    · exact (Nat.le_add_right _ _).trans (ih hitems hbehind)

/-- The columns of the lexemes of items increase. -/
lemma locate_pairwise {items : List Item} (h : ∀ item ∈ items, item.WellFormed) (column : Nat) :
    (locate column items).Pairwise (·.column < ·.column) := by
  induction items generalizing column with
  | nil => exact .nil
  | cons item items ih =>
    obtain ⟨hitem, hitems⟩ := List.forall_mem_cons.1 h
    rw [locate, List.pairwise_append]
    refine ⟨?_, ih hitems _, fun lexeme hhere other hbehind => ?_⟩
    · unfold located
      cases item.lexeme? with
      | none => exact .nil
      | some lexeme => exact List.pairwise_singleton _ _
    · obtain ⟨_, -, rfl⟩ := List.mem_map.1 hhere
      exact (place_mem hitem column).2.trans_le (le_column_of_mem_locate hitems hbehind)

/-- A lexeme of items is that of one of them, and the lexemes from this one on are those of the
items from this one on.

**Proof sketch.** Induction on the items. A blank has no lexeme, so the lexeme comes from the items
behind. Otherwise the first item has the first lexeme, and the lexeme in question is this one, or
comes from the items behind. -/
lemma exists_of_locate {items : List Item} {column : Nat} {before behind : List (Located Lexeme)}
    {lexeme : Located Lexeme} (h : locate column items = before ++ lexeme :: behind) :
    ∃ front item back, items = front ++ item :: back ∧ item.lexeme? = some lexeme.value ∧
      lexeme.column = item.place (column + (front.flatMap source).length) ∧
      lexeme :: behind = locate (column + (front.flatMap source).length) (item :: back) := by
  induction items generalizing column before with
  | nil => exact absurd h.symm (List.append_ne_nil_of_right_ne_nil _ (List.cons_ne_nil _ _))
  | cons item items ih =>
    -- the lexeme is one of the items behind
    have hbehind : ∀ before', locate (column + item.source.length) items =
        before' ++ lexeme :: behind → ∃ front item' back, item :: items = front ++ item' :: back ∧
          item'.lexeme? = some lexeme.value ∧
          lexeme.column = item'.place (column + (front.flatMap source).length) ∧
          lexeme :: behind = locate (column + (front.flatMap source).length) (item' :: back) := by
      intro before' hbefore'
      obtain ⟨front, item', back, rfl, hvalue, hcolumn, hlexemes⟩ := ih hbefore'
      refine ⟨item :: front, item', back, rfl, hvalue, ?_⟩
      rw [List.flatMap_cons, List.length_append, ← Nat.add_assoc]
      exact ⟨hcolumn, hlexemes⟩
    cases hlexeme : item.lexeme? with
    | none =>
      rw [locate, located, hlexeme] at h
      exact hbehind before h
    | some value =>
      cases before with
      | cons first before =>
        rw [locate, located, hlexeme] at h
        exact hbehind before (List.cons.inj h).2
      | nil =>
        refine ⟨[], item, items, rfl, ?_, ?_, h.symm⟩
        all_goals
          rw [locate, located, hlexeme] at h
          obtain ⟨rfl, -⟩ := List.cons.inj h
        · exact hlexeme
        · rfl

end Item

namespace Decomposes

variable {items : List Item} {text : List Char}

/-- Items that are moved have their lexemes moved. -/
lemma locate_moved (h : Decomposes items text) (count : Nat) :
    Item.locate (1 + count) items = (Item.locate 1 items).map (·.moved count) := by
  have hmoved := lexemesFrom_moved count (.plain .nothing) (Nat.le_refl 1) text
  change lexemesFrom (.plain .nothing) (1 + count) text = _ at hmoved
  rw [lexemesFrom_decomposes h, lexemesFrom_decomposes h] at hmoved
  exact Except.ok.inj hmoved

/-- The last items of a text are those of the last part of the text. -/
lemma of_append {front back : List Item} (h : Decomposes (front ++ back) text) :
    ∃ rest, text = front.flatMap Item.source ++ rest ∧ Decomposes back rest := by
  obtain ⟨hwell, hsep, rfl⟩ := h
  refine ⟨back.flatMap Item.source, List.flatMap_append, ?_, hsep.right_of_append, rfl⟩
  intro item hitem
  exact hwell item (List.mem_append_right _ hitem)

/-- What begins with a quote begins with a quoted text.

**Proof sketch.** By cases on the first item. Blanks, parentheses and operators do not begin with a
quote, and a word has quotes with a backslash only. -/
lemma exists_quoted (h : Decomposes items ('\'' :: text)) :
    ∃ glyphs others, items = .quoted glyphs :: others := by
  cases items with
  | nil => cases h.source
  | cons item items =>
    obtain ⟨rest, hsource, hitem, -, -⟩ := h.of_cons
    cases item with
    | quoted glyphs => exact ⟨glyphs, items, rfl⟩
    | blank c =>
      obtain ⟨rfl, -⟩ := List.cons.inj hsource
      exact absurd hitem (by change ¬ isBlankChar '\'' = true; decide)
    | opening | closing => exact absurd (List.cons.inj hsource).1 (by decide)
    | operator op =>
      cases op <;> exact absurd (List.cons.inj hsource).1 (by decide)
    | word glyphs =>
      obtain ⟨hne, hglyphs⟩ := hitem
      obtain ⟨g, glyphs, rfl⟩ := List.exists_cons_of_ne_nil hne
      cases g with
      | quote => exact absurd (List.cons.inj hsource).1 (by decide)
      | plain c =>
        have hquote : c ≠ '\'' := (hglyphs (.plain c) (List.mem_cons_self ..)).1
        exact absurd (List.cons.inj hsource).1.symm hquote

end Decomposes

/-- The first lexeme of a text that begins with a quote is no word. -/
lemma beginsWithQuote_of_quote {text : List Char} {lexeme : Located Lexeme}
    {others : List (Located Lexeme)}
    (h : lexemesOf (String.ofList ('\'' :: text)) = .ok (lexeme :: others)) :
    lexeme.value.beginsWithQuote = false := by
  obtain ⟨items, hitems, hlexemes⟩ := lexemesOf_eq_ok_iff.1 h
  rw [String.toList_ofList] at hitems
  obtain ⟨glyphs, behind, rfl⟩ := hitems.exists_quoted
  obtain ⟨rfl, -⟩ := List.cons.inj hlexemes
  rfl

/-- A word that begins with a quote is written with a backslash in front of the quote. -/
lemma Item.exists_of_beginsWithQuote {item : Item} (h : item.WellFormed) {lexeme : Lexeme}
    (hlexeme : item.lexeme? = some lexeme) (hquote : lexeme.beginsWithQuote = true) :
    ∃ rest, item.source = '\\' :: '\'' :: rest := by
  cases item with
  | word glyphs =>
    cases hlexeme
    obtain ⟨hne, hglyphs⟩ := h
    obtain ⟨g, glyphs, rfl⟩ := List.exists_cons_of_ne_nil hne
    cases g with
    | quote => exact ⟨glyphSource glyphs, rfl⟩
    | plain c =>
      have hplain : c ≠ '\'' := (hglyphs (.plain c) (List.mem_cons_self ..)).1
      simp [Lexeme.beginsWithQuote, glyphText, Glyph.char, hplain] at hquote
  | blank | opening | closing | operator | quoted =>
    cases hlexeme <;> cases hquote

/-- The part of a text that begins with one of its lexemes has the lexemes from this one on. It
begins at the column of the lexeme, unless this is a word that begins with a quote. Then it begins
with a backslash, and with the quote at the column.

**Proof sketch.** The lexemes from one on are those of the items from its item on
(`Item.exists_of_locate`), and these make up a part of the text by themselves. -/
lemma exists_part {text : String} {before behind : List (Located Lexeme)} {lexeme : Located Lexeme}
    (h : lexemesOf text = .ok (before ++ lexeme :: behind)) :
    ∃ count, (lexemesOf (fromColumn text (count + 1))).map (List.map (·.moved count)) =
        .ok (lexeme :: behind) ∧
      (lexeme.value.beginsWithQuote = false → lexeme.column = count + 1) ∧
      (lexeme.value.beginsWithQuote = true → lexeme.column = count + 2 ∧
        ∃ rest, fromColumn text (count + 2) = String.ofList ('\'' :: rest)) := by
  obtain ⟨items, hitems, hlocate⟩ := lexemesOf_eq_ok_iff.1 h
  obtain ⟨front, item, back, rfl, hvalue, hcolumn, hlexemes⟩ := Item.exists_of_locate hlocate.symm
  have hitem := hitems.wellFormed item (List.mem_append_right _ (List.mem_cons_self ..))
  obtain ⟨rest, htext, hback⟩ := hitems.of_append
  obtain ⟨remaining, rfl, -⟩ := hback.of_cons
  rw [Item.place_eq hitem hvalue] at hcolumn
  refine ⟨(front.flatMap Item.source).length, ?_, fun hplain => ?_, fun hquote => ⟨?_, ?_⟩⟩
  · rw [fromColumn, Nat.add_sub_cancel, htext, List.drop_left, hlexemes, hback.locate_moved,
      lexemesOf, String.toList_ofList, lexemesFrom_decomposes hback]
    rfl
  · simp only [hplain, Bool.false_eq_true, if_false] at hcolumn
    omega
  · simp only [hquote, if_true] at hcolumn
    omega
  · obtain ⟨characters, hsource⟩ := Item.exists_of_beginsWithQuote hitem hvalue hquote
    refine ⟨characters ++ remaining, congrArg String.ofList ?_⟩
    rw [htext, hsource]
    simp [List.drop_append]

/-- **Where a lexeme begins.** The columns of the lexemes of a text increase and are columns of the
text. The part of the text that begins at the column of a lexeme has the lexemes from this one on,
moved to the front, exactly when the lexeme is no word that begins with a quote; for such a word,
the part that begins one column earlier has them.

**Proof sketch.** The items of the text have increasing places. At the item of the lexeme the text
is divided, by `Targeting.exists_part`, and the part behind has the lexemes from this one on, moved.
A word that begins with a quote has the column of the quote, one behind its backslash, and from
there the text begins with a quoted text, which is no word. -/
theorem lexemesOf_fromColumn {text : String} {lexemes : List (Located Lexeme)}
    (h : lexemesOf text = .ok lexemes) :
    lexemes.Pairwise (·.column < ·.column) ∧
      (∀ lexeme ∈ lexemes, IsColumn text.length lexeme.column) ∧
      ∀ before lexeme behind, lexemes = before ++ lexeme :: behind →
        ((lexemesOf (fromColumn text lexeme.column)).map
              (List.map (·.moved (lexeme.column - 1))) = .ok (lexeme :: behind) ↔
            lexeme.value.beginsWithQuote = false) ∧
          (lexeme.value.beginsWithQuote = true →
            2 ≤ lexeme.column ∧
            (lexemesOf (fromColumn text (lexeme.column - 1))).map
              (List.map (·.moved (lexeme.column - 2))) = .ok (lexeme :: behind)) := by
  have hincreasing : lexemes.Pairwise (·.column < ·.column) := by
    obtain ⟨items, hitems, rfl⟩ := lexemesOf_eq_ok_iff.1 h
    exact Item.locate_pairwise hitems.wellFormed 1
  refine ⟨hincreasing, (lexemesOf_ensures text).of_eq_ok h, ?_⟩
  rintro before ⟨value, column⟩ behind rfl
  obtain ⟨count, hpart, hplain, hquoted⟩ := exists_part h
  cases hquote : value.beginsWithQuote with
  | false =>
    obtain rfl : column = count + 1 := hplain hquote
    exact ⟨iff_of_true hpart rfl, fun hcontra => nomatch hcontra⟩
  | true =>
    obtain ⟨hcolumn, rest, hrest⟩ := hquoted hquote
    obtain rfl : column = count + 2 := hcolumn
    refine ⟨iff_of_false (fun hmoved => ?_) (fun hcontra => nomatch hcontra),
      fun _ => ⟨Nat.le_add_left 2 count, hpart⟩⟩
    -- behind its backslash the word is no word
    obtain ⟨found, hfound, heq⟩ := map_eq_ok_iff.1 hmoved
    obtain ⟨first, others, rfl, hfirst, -⟩ := List.map_eq_cons_iff.1 heq
    rw [hrest] at hfound
    obtain rfl : first.value = value := congrArg Located.value hfirst
    rw [beginsWithQuote_of_quote hfound] at hquote
    cases hquote

/-- The parts of `Role=='x'||\\'s` that begin at the third lexeme, a quoted text, and at the last
one, the word `'s`, in front of whose column there is a backslash. -/
theorem lexemesOf_fromColumn_escaped :
    let lexemes : List (Located Lexeme) :=
      [⟨.word "Role", 1⟩, ⟨.operator .equal, 5⟩, ⟨.quoted "x", 7⟩, ⟨.operator .or, 10⟩,
        ⟨.word "'s", 13⟩]
    lexemesOf "Role=='x'||\\'s" = .ok lexemes ∧
      (lexemesOf (fromColumn "Role=='x'||\\'s" 7)).map (List.map (·.moved 6)) =
        .ok (lexemes.drop 2) ∧
      (lexemesOf (fromColumn "Role=='x'||\\'s" 12)).map (List.map (·.moved 11)) =
        .ok (lexemes.drop 4) := by
  intro lexemes
  have hlexemes : lexemesOf "Role=='x'||\\'s" = .ok lexemes := by
    rw [← toOption_eq_some_iff]
    decide
  obtain ⟨-, -, hparts⟩ := lexemesOf_fromColumn hlexemes
  exact ⟨hlexemes, (hparts (lexemes.take 2) _ _ rfl).1.2 rfl,
    ((hparts (lexemes.take 4) _ _ rfl).2 rfl).2⟩

/-- The word `'s` has the column of its quote; what begins there is a quoted text that does not
end. -/
theorem not_lexemesOf_fromColumn_quote :
    lexemesOf "\\'s" = .ok [⟨.word "'s", 2⟩] ∧
      lexemesOf (fromColumn "\\'s" 2) = .error ⟨.unterminatedLiteral, 1⟩ :=
  ⟨rfl, rfl⟩

end Targeting
