import Targeting.Proofs.Rule.Words

/-!
# Tokens as text

The tokens of a rule can be written out again, with a blank between neighbours. Texts are written
between quotes with a backslash before each quote inside, but the name of a variable is written as
it is. A word may have quotes in it all the same, each with a backslash before it in the rule; the
word of its name without the backslashes is another one, or none.

So the text of the tokens is read as the same tokens exactly when no variable has a quote in its
name.

## Main definitions

* `Targeting.Token.lexeme` — the lexeme that the text of a token is meant to be.
* `Targeting.Token.item` — the item as which a token is written.

## Main results

* `Targeting.Token.ofLexeme_lexeme` — a token of a rule is the token of its lexeme.
* `Targeting.Token.wellFormed_item_iff` — which tokens are written as the grammar has it.
* `Targeting.readsBack_renderAll_iff` — which tokens are read back from their text.
-/

set_option autoImplicit false

namespace Targeting

/-! ## Characters of lexemes -/

/-- A lexeme of a text is that of an item written as the grammar has it. -/
lemma Spells.exists_item_of_mem {text : List Char} {lexemes : List Lexeme}
    (h : Spells text lexemes) {lexeme : Lexeme} (hmem : lexeme ∈ lexemes) :
    ∃ item : Item, item.WellFormed ∧ item.lexeme? = some lexeme := by
  obtain ⟨items, hitems, rfl⟩ := h
  obtain ⟨item, hitem, hlexeme⟩ := List.mem_filterMap.1 hmem
  exact ⟨item, hitems.wellFormed item hitem, hlexeme⟩

/-- A quoted text has no backslash in it: those that are written stand before quotes. -/
lemma Spells.not_mem_of_quoted {text : List Char} {lexemes : List Lexeme} (h : Spells text lexemes)
    {literal : String} (hmem : .quoted literal ∈ lexemes) : '\\' ∉ literal.toList := by
  obtain ⟨item, hitem, hlexeme⟩ := h.exists_item_of_mem hmem
  cases item with
  | quoted glyphs =>
    obtain rfl : glyphText glyphs = literal := by simpa [Item.lexeme?] using hlexeme
    rw [glyphText, String.toList_ofList]
    intro hbackslash
    obtain ⟨g, hg, hchar⟩ := List.mem_map.1 hbackslash
    cases g with
    | quote => exact absurd hchar (by decide)
    | plain c => exact (hitem _ hg).2 hchar
  | _ => cases hlexeme

/-- A word that a text spells can stand in a rule as it is exactly when it has no quote in it. -/
lemma Spells.isPlainWord_iff {text : List Char} {lexemes : List Lexeme} (h : Spells text lexemes)
    {word : String} (hmem : .word word ∈ lexemes) : IsPlainWord word ↔ '\'' ∉ word.toList := by
  constructor
  · intro hplain hquote
    exact (hplain.2 _ hquote).1 rfl
  · intro hquote
    refine ⟨(h.word_of_mem hmem).1, fun c hc => ?_⟩
    obtain ⟨item, hitem, hlexeme⟩ := h.exists_item_of_mem hmem
    cases item with
    | word glyphs =>
      obtain rfl : glyphText glyphs = word := by simpa [Item.lexeme?] using hlexeme
      rw [glyphText, String.toList_ofList] at hc hquote
      obtain ⟨g, hg, rfl⟩ := List.mem_map.1 hc
      cases g with
      | quote => exact absurd hc hquote
      | plain c => exact hitem.2 _ hg
    | _ => cases hlexeme

/-! ## The text of a token -/

namespace Token

/-- The lexeme that the text of a token is meant to be. -/
def lexeme : Token → Lexeme
  | text s => .quoted s
  | truth b => .word (truthText b)
  | .variable v => .word v.name
  | operator op => .operator op
  | opening => .opening
  | closing => .closing

/-- The item as which a token is written. -/
def item : Token → Item
  | text s => .quoted (s.toList.map Glyph.ofChar)
  | truth b => .word ((truthText b).toList.map .plain)
  | .variable v => .word (v.name.toList.map .plain)
  | operator op => .operator op
  | opening => .opening
  | closing => .closing

/-- The text of a token is that of its item. -/
lemma source_item (token : Token) : token.item.source = token.render.toList := by
  cases token with
  | text s => exact (toList_quoteText s).symm
  | truth b => exact glyphSource_map_plain _
  | «variable» v => exact glyphSource_map_plain _
  | operator op => simp [item, Item.source, render, Operator.symbol]
  | opening | closing => rfl

/-- The lexeme of its item is the one that a token is meant to be. -/
lemma lexeme?_item (token : Token) : token.item.lexeme? = some token.lexeme := by
  cases token with
  | text s => simp [item, Item.lexeme?, glyphText_map_ofChar, lexeme]
  | truth b => simp [item, Item.lexeme?, glyphText_map_plain, lexeme]
  | «variable» v => simp [item, Item.lexeme?, glyphText_map_plain, lexeme]
  | operator | opening | closing => rfl

section Words

variable {snapshot : Snapshot} {policy : FieldPolicy}

/-- A lexeme that is the token of a variable is the variable's name. -/
lemma eq_word_of_ofLexeme {lexeme : Lexeme} {v : Variable}
    (h : ofLexeme snapshot policy lexeme = .ok (.variable v)) : lexeme = .word v.name := by
  cases v with
  | record path => exact (ofLexeme_eq_record_iff.1 h).1
  | named a =>
    cases lexeme with
    | word w =>
      simp only [ofLexeme, ofWord] at h
      split at h
      · cases h
      · next hname =>
        cases h
        have hword := List.find?_some hname
        simp only [decide_eq_true_eq] at hword
        exact congrArg Lexeme.word hword.symm
      · split_ifs at h
        cases h
      · cases h
    | _ => cases h

/-- A token of a rule is the token of its lexeme in the same snapshot. -/
lemma ofLexeme_lexeme {lexeme : Lexeme} {token : Token}
    (h : ofLexeme snapshot policy lexeme = .ok token) :
    ofLexeme snapshot policy token.lexeme = .ok token := by
  cases token with
  | truth b => simp only [Token.lexeme, ofLexeme, ofWord, readTruth?_truthText]
  | «variable» v =>
    rw [eq_word_of_ofLexeme h] at h
    exact h
  | text | operator | opening | closing => rfl

/-- A token of a rule is written as the grammar has it, unless it is a variable with a quote in its
name.

**Proof sketch.** By cases on the token. Quoted texts are written with their quotes escaped, truth
values are plain words, and operators and parentheses are written as they are. The word of a
variable is plain exactly if it has no quote, by `Targeting.Spells.isPlainWord_iff`, since it had
none of the other characters that break words. -/
lemma wellFormed_item_iff {text : List Char} {lexemes : List Lexeme} (hspells : Spells text lexemes)
    {lexeme : Lexeme} (hmem : lexeme ∈ lexemes) {token : Token}
    (h : ofLexeme snapshot policy lexeme = .ok token) :
    token.item.WellFormed ↔ ∀ v, token = .variable v → '\'' ∉ v.name.toList := by
  cases token with
  | text s =>
    obtain rfl := ofLexeme_eq_text_iff.1 h
    exact iff_of_true (wellFormed_quoted_ofChar (hspells.not_mem_of_quoted hmem))
      fun _ hv => nomatch hv
  | truth b =>
    have hplain : IsPlainWord (truthText b) := by cases b <;> decide
    exact iff_of_true hplain.wellFormed fun _ hv => nomatch hv
  | «variable» v =>
    obtain rfl := eq_word_of_ofLexeme h
    have hplain := hspells.isPlainWord_iff hmem
    constructor
    · rintro ⟨-, hglyphs⟩ _ ⟨⟩ hquote
      exact (hglyphs _ (List.mem_map_of_mem hquote)).1 rfl
    · intro hquote
      exact (hplain.2 (hquote v rfl)).wellFormed
  | operator | opening | closing => exact iff_of_true trivial fun _ hv => nomatch hv

end Words

end Token

/-! ## The text of several tokens -/

/-- Behind a first token stands nothing, or a blank and the text of the other tokens. Both let a
word end and are read as the text of the others. -/
lemma exists_renderAll_cons (token : Located Token) (tokens : List (Located Token)) :
    ∃ rest, (Token.renderAll (token :: tokens)).toList = token.value.item.source ++ rest ∧
      EndsWord rest ∧
      ∀ lexemes, Spells rest lexemes ↔ Spells (Token.renderAll tokens).toList lexemes := by
  rw [Token.source_item]
  cases tokens with
  | nil => exact ⟨[], by simp [Token.renderAll], trivial, fun _ => Iff.rfl⟩
  | cons next tokens =>
    have hblank : (Item.blank ' ').WellFormed := by change isBlankChar ' ' = true; decide
    refine ⟨' ' :: (Token.renderAll (next :: tokens)).toList, ?_, endsWord_blank _, ?_⟩
    · rw [Token.renderAll, List.map_cons, List.map_cons, String.intercalate_cons_cons]
      simp [Token.renderAll]
    · refine fun lexemes => ⟨fun h => ?_, fun h => h.blank hblank⟩
      obtain ⟨_, rfl, hrest⟩ := h.of_item hblank (by simp)
      exact hrest

/-- Each token of a rule is that of a lexeme of the rule. -/
lemma exists_lexeme_of_mem_tokensOf {snapshot : Snapshot} {policy : FieldPolicy} {rule : String}
    {tokens : List (Located Token)} (h : tokensOf snapshot policy rule = .ok tokens) :
    ∃ lexemes, Spells rule.toList lexemes ∧ ∀ token ∈ tokens, ∃ lexeme ∈ lexemes,
      Token.ofLexeme snapshot policy lexeme = .ok token.value := by
  obtain ⟨lexemes, hspells, hvalues⟩ := exists_tokensOf_iff.1 ⟨tokens, h, rfl⟩
  refine ⟨lexemes, hspells, ?_⟩
  rw [List.forall₂_map_right_iff] at hvalues
  clear hspells h
  induction hvalues with
  | nil => simp
  | cons hlexeme _ ih =>
    intro token htoken
    rcases List.mem_cons.1 htoken with rfl | htoken
    · exact ⟨_, List.mem_cons_self .., hlexeme⟩
    · obtain ⟨lexeme, hmem, hother⟩ := ih token htoken
      exact ⟨lexeme, List.mem_cons_of_mem _ hmem, hother⟩

section Rules

variable {snapshot : Snapshot} {policy : FieldPolicy}

/-- Tokens are read back from their text exactly when all of them are written as the grammar has
it, given that a variable is the only token that may not be.

**Proof sketch.** Induction on the tokens. A token that is written as the grammar has it is read as
its lexeme, and what is behind it as the text of the others. A variable can only be read back from
the word of its own characters, which then may stand in a rule as they are. -/
lemma exists_spells_renderAll_iff {tokens : List (Located Token)}
    (hread : ∀ token ∈ tokens,
      Token.ofLexeme snapshot policy token.value.lexeme = .ok token.value)
    (hwritten : ∀ token ∈ tokens,
      token.value.item.WellFormed ∨ ∃ v, token.value = .variable v) :
    (∃ lexemes, Spells (Token.renderAll tokens).toList lexemes ∧
        List.Forall₂ (fun lexeme value => Token.ofLexeme snapshot policy lexeme = .ok value) lexemes
          (tokens.map (·.value))) ↔
      ∀ token ∈ tokens, token.value.item.WellFormed := by
  induction tokens with
  | nil => exact iff_of_true ⟨[], .nil, .nil⟩ (by simp)
  | cons token tokens ih =>
    obtain ⟨htoken, htokens⟩ := List.forall_mem_cons.1 hread
    obtain ⟨hfirst, hothers⟩ := List.forall_mem_cons.1 hwritten
    specialize ih htokens hothers
    obtain ⟨rest, hsource, hends, hrest⟩ := exists_renderAll_cons token tokens
    rw [hsource, List.forall_mem_cons, List.map_cons, ← ih]
    constructor
    · rintro ⟨lexemes, hspells, hvalues⟩
      obtain ⟨lexeme, others, hlexeme, htail, rfl⟩ := List.forall₂_cons_right_iff.1 hvalues
      -- a variable is read back from a word only, so its characters are those of a plain word
      have hwell : token.value.item.WellFormed := by
        rcases hfirst with hwell | ⟨v, hv⟩
        · exact hwell
        · rw [hv] at hlexeme hspells ⊢
          obtain rfl := Token.eq_word_of_ofLexeme hlexeme
          rw [Token.source_item] at hspells
          exact ((spells_word_iff hends).1 hspells).1.wellFormed
      obtain ⟨behind, heq, hbehind⟩ := hspells.of_item hwell fun _ _ => hends
      rw [Token.lexeme?_item] at heq
      obtain ⟨-, rfl⟩ := List.cons.inj heq
      exact ⟨hwell, _, (hrest _).1 hbehind, htail⟩
    · rintro ⟨hwell, lexemes, hspells, hvalues⟩
      have hcons := ((hrest _).2 hspells).cons _ hwell fun _ _ => hends
      rw [Token.lexeme?_item] at hcons
      exact ⟨_, hcons, .cons htoken hvalues⟩

/-- **Which tokens are read back.** The text of the tokens of a rule has the same tokens in the same
snapshot exactly when none of their variables has a quote in its name.

**Proof sketch.** The text of the tokens spells lexemes with the same tokens exactly if the item of
each of them is well-formed, by `Targeting.exists_spells_renderAll_iff`. The tokens come from
lexemes of the rule, so by `Targeting.Token.wellFormed_item_iff` that says that no variable has a
quote in its name. -/
theorem readsBack_renderAll_iff {rule : String} {tokens : List (Located Token)}
    (h : tokensOf snapshot policy rule = .ok tokens) :
    (∃ others, tokensOf snapshot policy (Token.renderAll tokens) = .ok others ∧
        others.map (·.value) = tokens.map (·.value)) ↔
      ∀ v, .variable v ∈ tokens.map (·.value) → '\'' ∉ v.name.toList := by
  obtain ⟨lexemes, hspells, hlexemes⟩ := exists_lexeme_of_mem_tokensOf h
  have hwritten : ∀ token ∈ tokens, token.value.item.WellFormed ↔
      ∀ v, token.value = .variable v → '\'' ∉ v.name.toList := by
    intro token htoken
    obtain ⟨lexeme, hmem, hlexeme⟩ := hlexemes token htoken
    exact Token.wellFormed_item_iff hspells hmem hlexeme
  rw [exists_tokensOf_iff, exists_spells_renderAll_iff]
  · rw [forall₂_congr hwritten]
    simp only [List.mem_map]
    constructor
    · rintro hnames v ⟨token, htoken, hv⟩
      exact hnames token htoken v hv
    · exact fun hnames token htoken v hv => hnames v ⟨token, htoken, hv⟩
  · intro token htoken
    obtain ⟨lexeme, -, hlexeme⟩ := hlexemes token htoken
    exact Token.ofLexeme_lexeme hlexeme
  · intro token htoken
    rw [hwritten token htoken]
    by_cases hvariable : ∃ v, token.value = .variable v
    · exact .inr hvariable
    · exact .inl fun v hv => absurd ⟨v, hv⟩ hvariable

end Rules

/-- Texts with a quote and without characters, a truth value in capitals, a group and a path with
two points are read back.

**Proof sketch.** The tokens of the rule and their text are computed. That both variables are
without a quote is seen from their names, so the theorem has the text read back. -/
theorem readsBack_renderAll_iff_literals :
    let snapshot : Snapshot := { data := .ofList [("Account", ∅)] }
    let tokens : List (Located Token) :=
      [⟨.variable (.record ⟨"Account", "Owner.Name"⟩), 1⟩, ⟨.operator .equal, 19⟩,
        ⟨.text "it's", 21⟩, ⟨.operator .and, 28⟩, ⟨.opening, 30⟩, ⟨.truth true, 31⟩,
        ⟨.operator .or, 35⟩, ⟨.variable (.named .role), 37⟩, ⟨.operator .notEqual, 41⟩,
        ⟨.text "", 43⟩, ⟨.closing, 45⟩]
    tokensOf snapshot .lenient "Account.Owner.Name=='it\\'s'&&(TRUE||Role!='')" = .ok tokens ∧
      (∀ v, .variable v ∈ tokens.map (·.value) → '\'' ∉ v.name.toList) ∧
      Token.renderAll tokens = "Account.Owner.Name == 'it\\'s' && ( true || Role != '' )" ∧
      ∃ others, tokensOf snapshot .lenient (Token.renderAll tokens) = .ok others ∧
        others.map (·.value) = tokens.map (·.value) := by
  intro snapshot tokens
  have htokens : tokensOf snapshot .lenient "Account.Owner.Name=='it\\'s'&&(TRUE||Role!='')" =
      .ok tokens := by
    rw [← toOption_eq_some_iff]
    unfold snapshot tokens
    decide +kernel
  have hplain : ∀ v, .variable v ∈ tokens.map (·.value) → '\'' ∉ v.name.toList := by
    intro v hv
    obtain rfl | rfl : v = .record ⟨"Account", "Owner.Name"⟩ ∨ v = .named .role := by
      simpa [tokens] using hv
    all_goals decide
  exact ⟨htokens, hplain, by decide +kernel, (readsBack_renderAll_iff htokens).2 hplain⟩

/-- A rule may speak of a field with a quote in its name; the text of its tokens is not a rule. -/
theorem not_readsBack_renderAll_quote :
    let snapshot : Snapshot := { data := .ofList [("Account", .ofList [("O'Brien", .text "x")])] }
    let tokens : List (Located Token) := [⟨.variable (.record ⟨"Account", "O'Brien"⟩), 1⟩]
    tokensOf snapshot .strict "Account.O\\'Brien" = .ok tokens ∧
      Token.renderAll tokens = "Account.O'Brien" ∧
      tokensOf snapshot .strict (Token.renderAll tokens) = .error ⟨.unexpectedQuote, 10⟩ := by
  intro snapshot tokens
  have hrender : Token.renderAll tokens = "Account.O'Brien" := by decide
  refine ⟨?_, hrender, ?_⟩
  · rw [← toOption_eq_some_iff]
    unfold snapshot tokens
    decide +kernel
  · rw [hrender]
    unfold snapshot
    decide +kernel

end Targeting
