import Targeting.Proofs.Failure
import Targeting.Proofs.Rule.Expression

/-!
# Reading expressions

A reader that builds the expression of a list of tokens from left to right. In front of the operand
that comes next stand *frames*: left operands with their operators and opening parentheses. An
operator first closes the frames whose operators bind at least as tightly.

The reader accepts exactly what the grammar derives, so the grammar is unambiguous; and it accepts
all that the check of a rule lets pass.

## Main definitions

* `Targeting.Frame`, `Targeting.Frames` — what stands in front of the next operand.
* `Targeting.Expression.read`, `Targeting.Expression.ofTokens?` — the reader.

## Main results

* `Targeting.Expression.read_tokens` — the reader builds each tree of the grammar from its tokens.
* `Targeting.Expression.ofTokens?_eq_some_iff` — it finds exactly the trees of the grammar.
* `Targeting.Derives.unique` — the tree of a list of tokens is unique.
* `Targeting.Expression.isSome_ofTokens?` — the check lets only expressions pass.
-/

set_option autoImplicit false

namespace Targeting

/-- A left operand with its operator, or an opening parenthesis. -/
inductive Frame where
  | binary (left : Expression) (op : Operator) (column : Nat)
  | opening (column : Nat)

/-- The frames in front of the next operand, the innermost first. -/
abbrev Frames := List Frame

namespace Frames

/-- The tokens of frames in the order in which they are written. -/
def tokens : Frames → List (Located Token)
  | [] => []
  | .binary left op column :: rest => tokens rest ++ left.tokens ++ [⟨.operator op, column⟩]
  | .opening column :: rest => tokens rest ++ [⟨.opening, column⟩]

/-- The columns of the open parentheses, innermost first. -/
def opened : Frames → List Nat
  | [] => []
  | .binary _ _ _ :: rest => opened rest
  | .opening column :: rest => column :: opened rest

/-- Whether the innermost operator binds less tightly than a level. -/
def Below (level : Nat) : Frames → Prop
  | .binary _ op _ :: _ => op.precedence < level
  | _ => True

/-- Whether each left operand fits in front of its operator, and the operators between two
parentheses bind more and more tightly. -/
def Sound : Frames → Prop
  | [] => True
  | .binary left op _ :: rest => left.FitsAt op.precedence ∧ Below op.precedence rest ∧ Sound rest
  | .opening _ :: rest => Sound rest

/-- Closes the frames of the operators of at least a level around a right operand. -/
def close (level : Nat) : Frames → Expression → Frames × Expression
  | .binary left op column :: rest, e =>
    if level ≤ op.precedence then close level rest (.binary op column left e)
    else (.binary left op column :: rest, e)
  | frames, e => (frames, e)

end Frames

namespace Expression

/-- Reads tokens after some frames and after the operand that the last token completes, if any. -/
def read (frames : Frames) (current : Option Expression) :
    List (Located Token) → Option Expression
  | [] =>
    match current.map (frames.close 1) with
    | some ([], e) => some e
    | _ => none
  | token :: rest =>
    match token.value, current with
    | .text s, none => read frames (some (.atom (.text s) token.column)) rest
    | .truth b, none => read frames (some (.atom (.truth b) token.column)) rest
    | .variable v, none => read frames (some (.atom (.variable v) token.column)) rest
    | .opening, none => read (.opening token.column :: frames) none rest
    | .closing, some e =>
      match frames.close 1 e with
      | (.opening opening :: frames, inner) =>
        read frames (some (.group opening inner token.column)) rest
      | _ => none
    | .operator op, some e =>
      let (frames, left) := frames.close op.precedence e
      read (.binary left op token.column :: frames) none rest
    | _, _ => none

/-- The expression of a list of tokens, if it is one. -/
def ofTokens? (tokens : List (Located Token)) : Option Expression := read [] none tokens

end Expression

/-! ## What is derived is read -/

namespace Frames

/-- Frames below a level have nothing to close at that level. -/
lemma close_of_below {level : Nat} {frames : Frames} (h : frames.Below level) (e : Expression) :
    frames.close level e = (frames, e) := by
  match frames with
  | [] | .opening _ :: _ => rfl
  | .binary _ _ _ :: _ => exact if_neg (Nat.not_le.2 h)

/-- A frame of at least a level is closed at that level. -/
lemma close_binary {level : Nat} {op : Operator} (h : level ≤ op.precedence) (left : Expression)
    (column : Nat) (frames : Frames) (right : Expression) :
    close level (.binary left op column :: frames) right =
      close level frames (.binary op column left right) := if_pos h

/-- What is below a level is below each higher one. -/
lemma Below.mono {level higher : Nat} {frames : Frames} (h : frames.Below level)
    (hle : level ≤ higher) : frames.Below higher := by
  match frames with
  | [] | .opening _ :: _ => trivial
  | .binary _ _ _ :: _ => exact Nat.lt_of_lt_of_le h hle

end Frames

/-- Whether an expression of a level can end in front of tokens: they begin with a closing
parenthesis or with an operator that does not bind more tightly, or there are none. -/
def EndsBefore (level : Nat) : List (Located Token) → Prop
  | [] => True
  | ⟨.closing, _⟩ :: _ => True
  | ⟨.operator op, _⟩ :: _ => op.precedence ≤ level
  | _ => False

/-- What ends before an operator of a level ends before one of a lower level. -/
lemma EndsBefore.mono {level higher : Nat} {rest : List (Located Token)} (h : EndsBefore level rest)
    (hle : level ≤ higher) : EndsBefore higher rest := by
  match rest with
  | [] | ⟨.closing, _⟩ :: _ => trivial
  | ⟨.operator _, _⟩ :: _ => exact Nat.le_trans h hle

namespace Expression

/-- An operator closes what binds at least as tightly and waits for its right operand. -/
lemma read_operator (frames : Frames) (e : Expression) (op : Operator) (column : Nat)
    (rest : List (Located Token)) :
    read frames (some e) (⟨.operator op, column⟩ :: rest) =
      read (.binary (frames.close op.precedence e).2 op column :: (frames.close op.precedence e).1)
        none rest := rfl

/-- A closing parenthesis closes all down to the opening one. -/
lemma read_closing {frames outer : Frames} {e inner : Expression} {opening : Nat}
    (h : frames.close 1 e = (.opening opening :: outer, inner)) (closing : Nat)
    (rest : List (Located Token)) :
    read frames (some e) (⟨.closing, closing⟩ :: rest) =
      read outer (some (.group opening inner closing)) rest := by
  simp only [read, h]

/-- A right operand is closed with its operator as soon as it ends. -/
lemma read_binary {op : Operator} {rest : List (Located Token)} (h : EndsBefore op.precedence rest)
    (left : Expression) (column : Nat) (frames : Frames) (right : Expression) :
    read (.binary left op column :: frames) (some right) rest =
      read frames (some (.binary op column left right)) rest := by
  match rest with
  | [] | ⟨.closing, _⟩ :: _ =>
    simp only [read, Option.map_some, Frames.close_binary op.one_le_precedence]
  | ⟨.operator _, _⟩ :: _ => simp only [read, Frames.close_binary h]

/-- The reader builds an expression of a level from its tokens, if the frames in front are below the
level and what follows lets the expression end.

**Proof sketch.** Induction on the expression. An operand is read as such. In a group the frame of
the opening parenthesis is below every level, and the closing one ends the inner expression. The
left operand of an operator ends before the operator, which then closes no frame; the right operand
is closed with it as soon as it ends (`read_binary`). -/
theorem read_tokens {e : Expression} {level : Nat} (hfits : e.FitsAt level) (frames : Frames)
    (hbelow : frames.Below level) (rest : List (Located Token)) (hends : EndsBefore level rest) :
    read frames none (e.tokens ++ rest) = read frames (some e) rest := by
  induction e generalizing level frames rest with
  | atom a column => cases a <;> rfl
  | group opening inner closing ih =>
    have hinner := ih hfits (.opening opening :: frames) trivial (⟨.closing, closing⟩ :: rest)
      trivial
    calc read frames none ((group opening inner closing).tokens ++ rest)
        = read (.opening opening :: frames) none (inner.tokens ++ ⟨.closing, closing⟩ :: rest) := by
          simp only [tokens, List.cons_append, List.append_assoc, List.nil_append, read]
      _ = read frames (some (group opening inner closing)) rest := by
          rw [hinner, read_closing rfl]
  | binary op column left right ihl ihr =>
    obtain ⟨hlevel, hleft, hright⟩ := hfits
    have hbelow := hbelow.mono hlevel
    have hends := hends.mono hlevel
    simp only [tokens, List.append_assoc, List.cons_append]
    rw [ihl hleft frames hbelow _ (Nat.le_refl _), read_operator, Frames.close_of_below hbelow,
      ihr hright _ (Nat.lt_succ_self _) rest (hends.mono (Nat.le_succ _)), read_binary hends]

/-- The expression of the tokens of a whole expression. -/
lemma ofTokens?_tokens {e : Expression} (h : e.FitsAt 1) : ofTokens? e.tokens = some e := by
  have hread := read_tokens h [] trivial [] trivial
  rw [List.append_nil] at hread
  rw [ofTokens?, hread]
  rfl

end Expression

/-! ## What is read is derived -/

namespace Frames

/-- All frames are below the level of a primary. -/
lemma below_four (frames : Frames) : frames.Below 4 := by
  match frames with
  | [] | .opening _ :: _ => trivial
  | .binary _ op _ :: _ => exact op.precedence_lt_four

/-- Closing frames moves no token. -/
lemma tokens_close (level : Nat) (frames : Frames) (e : Expression) :
    (frames.close level e).1.tokens ++ (frames.close level e).2.tokens =
      frames.tokens ++ e.tokens := by
  fun_induction close level frames e with
  | case1 left op column rest e h ih => simp [ih, tokens, Expression.tokens]
  | case2 | case3 => rfl

/-- Closing frames opens and closes no parenthesis. -/
lemma opened_close (level : Nat) (frames : Frames) (e : Expression) :
    (frames.close level e).1.opened = frames.opened := by
  fun_induction close level frames e with
  | case1 left op column rest e h ih => exact ih
  | case2 | case3 => rfl

/-- Closing frames around what fits in them leaves sound frames below the level, and an operand that
fits at the level.

**Proof sketch.** Induction along the closing. The frame that is closed becomes an expression of the
level of its operator, and the next frame is below that level as the frames are sound. -/
lemma sound_close {level above : Nat} {frames : Frames} {e : Expression} (hsound : frames.Sound)
    (hbelow : frames.Below above) (hfits : e.FitsAt above) (hle : level ≤ above) :
    (frames.close level e).1.Sound ∧ (frames.close level e).1.Below level ∧
      (frames.close level e).2.FitsAt level := by
  fun_induction close level frames e generalizing above with
  | case1 left op column rest e h ih =>
    obtain ⟨hleft, hrest, hsound⟩ := hsound
    exact ih hsound hrest ⟨Nat.le_refl _, hleft, hfits.mono hbelow⟩ h
  | case2 left op column rest e h => exact ⟨hsound, Nat.not_le.1 h, hfits.mono hle⟩
  | case3 frames e h =>
    refine ⟨hsound, ?_, hfits.mono hle⟩
    match frames with
    | [] | .opening _ :: _ => trivial
    | .binary left op column :: rest => exact absurd rfl (h left op column rest)

end Frames

namespace Expression

/-- What is read has the tokens of the frames, of the operand and of the rest, and fits at the
lowest level.

**Proof sketch.** Induction along the reader, whose frames stay sound. The operand that the last
token completes is a literal, a variable or a group, so it fits at each level. -/
theorem read_sound {frames : Frames} {current : Option Expression} {rest : List (Located Token)}
    {e : Expression} (hsound : frames.Sound) (hcurrent : ∀ c ∈ current, c.FitsAt 4)
    (h : read frames current rest = some e) :
    e.tokens = frames.tokens ++ current.elim [] tokens ++ rest ∧ e.FitsAt 1 := by
  fun_induction read frames current rest with
  | case1 frames current whole hclose =>
    obtain rfl := Option.some.inj h
    obtain ⟨last, rfl, hclosed⟩ := Option.map_eq_some_iff.1 hclose
    have htokens := Frames.tokens_close 1 frames last
    have hfits := (Frames.sound_close hsound frames.below_four (hcurrent last rfl)
      (by decide : 1 ≤ 4)).2.2
    rw [hclosed] at htokens hfits
    exact ⟨by simpa [Frames.tokens] using htokens, hfits⟩
  | case3 frames token rest a hvalue ih | case4 frames token rest a hvalue ih
  | case5 frames token rest a hvalue ih =>
    obtain ⟨value, column⟩ := token
    obtain rfl : value = _ := hvalue
    obtain ⟨htokens, hfits⟩ := ih hsound (by simp [FitsAt]) h
    exact ⟨by simpa [tokens, Atom.token] using htokens, hfits⟩
  | case6 frames token rest hvalue ih =>
    -- an opening parenthesis is one more frame, which waits for its operand
    obtain ⟨value, column⟩ := token
    obtain rfl : value = _ := hvalue
    obtain ⟨htokens, hfits⟩ := ih hsound (by simp) h
    exact ⟨by simpa [Frames.tokens] using htokens, hfits⟩
  | case7 frames token rest last hvalue opening outer inner hclose ih =>
    -- a closing parenthesis closes the frames down to the opening one, and the group is an operand
    obtain ⟨value, column⟩ := token
    obtain rfl : value = _ := hvalue
    have hmoved := Frames.tokens_close 1 frames last
    obtain ⟨houter, -, hinner⟩ := Frames.sound_close hsound frames.below_four (hcurrent last rfl)
      (by decide : 1 ≤ 4)
    rw [hclose] at hmoved houter hinner
    obtain ⟨htokens, hfits⟩ := ih houter (by simpa [FitsAt] using hinner) h
    exact ⟨by simpa [tokens, Frames.tokens, ← hmoved] using htokens, hfits⟩
  | case9 frames token rest op last hvalue outer left hclose ih =>
    -- an operator closes the frames that bind at least as tightly; they are its left operand
    obtain ⟨value, column⟩ := token
    obtain rfl : value = _ := hvalue
    have hmoved := Frames.tokens_close op.precedence frames last
    obtain ⟨houter, hbelow, hleft⟩ := Frames.sound_close hsound frames.below_four
      (hcurrent last rfl) op.precedence_lt_four.le
    rw [hclose] at hmoved houter hbelow hleft
    obtain ⟨htokens, hfits⟩ := ih ⟨hleft, hbelow, houter⟩ (by simp) h
    exact ⟨by simpa [Frames.tokens, ← hmoved] using htokens, hfits⟩
  | case2 | case8 | case10 => cases h

/-- The reader finds exactly the trees of the grammar. -/
theorem ofTokens?_eq_some_iff {tokens : List (Located Token)} {e : Expression} :
    ofTokens? tokens = some e ↔ Derives .disjunction tokens e := by
  rw [derives_iff]
  constructor
  · intro h
    have hsound : Frames.Sound [] := trivial
    obtain ⟨htokens, hfits⟩ := read_sound hsound (by simp) h
    exact ⟨by simpa [Frames.tokens] using htokens, hfits⟩
  · rintro ⟨rfl, hfits⟩
    exact ofTokens?_tokens hfits

end Expression

/-- The grammar is unambiguous: a list of tokens has at most one tree. -/
theorem Derives.unique {tokens : List (Located Token)} {e other : Expression}
    (h : Derives .disjunction tokens e) (hother : Derives .disjunction tokens other) :
    other = e := by
  rw [← Expression.ofTokens?_eq_some_iff] at h hother
  exact Option.some.inj (hother.symm.trans h)

/-! ## What the check lets pass is read -/

namespace Frames

/-- Frames without an open parenthesis are all closed at the lowest level. -/
lemma close_of_opened_nil {frames : Frames} (h : frames.opened = []) (e : Expression) :
    ∃ whole, frames.close 1 e = ([], whole) := by
  fun_induction close 1 frames e with
  | case1 left op column rest e hle ih => exact ih h
  | case2 left op column rest e hle => exact absurd op.one_le_precedence hle
  | case3 frames e hframes =>
    match frames with
    | [] => exact ⟨e, rfl⟩
    | .binary left op column :: rest => exact absurd rfl (hframes left op column rest)

/-- Closing at the lowest level stops at the innermost open parenthesis. -/
lemma close_of_opened_cons {frames : Frames} {opening : Nat} {columns : List Nat}
    (h : frames.opened = opening :: columns) (e : Expression) :
    ∃ (outer : Frames) (inner : Expression),
      frames.close 1 e = (.opening opening :: outer, inner) ∧ outer.opened = columns := by
  fun_induction close 1 frames e with
  | case1 left op column rest e hle ih => exact ih h
  | case2 left op column rest e hle => exact absurd op.one_le_precedence hle
  | case3 frames e hframes =>
    match frames with
    | .opening column :: rest =>
      obtain ⟨rfl, rfl⟩ := List.cons.inj h
      exact ⟨rest, e, rfl, rfl⟩
    | .binary left op column :: rest => exact absurd rfl (hframes left op column rest)

end Frames

namespace Expression

/-- The reader goes through wherever the check does, with the same open parentheses, and an operand
complete in both or in neither.

**Proof sketch.** Induction on the tokens: at each token the check fails unless the reader goes on,
and both open and close the same parentheses. -/
theorem isSome_read {frames : Frames} {current : Option Expression} {outlook : Outlook}
    {rest : List (Located Token)} (hopened : outlook.opened = frames.opened)
    (hcomplete : outlook.complete = current.isSome)
    (h : (rest.foldlM Outlook.next outlook >>= Outlook.finish) = .ok ()) :
    (read frames current rest).isSome := by
  induction rest generalizing frames current outlook with
  | nil =>
    -- at the end no parenthesis is open and there is an operand, so the frames close to a whole
    obtain ⟨opened, complete, last⟩ := outlook
    cases opened with
    | cons column columns => cases h
    | nil =>
      cases current with
      | none =>
        obtain rfl : complete = false := hcomplete
        cases h
      | some e =>
        obtain ⟨whole, hclose⟩ := Frames.close_of_opened_nil hopened.symm e
        rw [read, Option.map_some, hclose]
        rfl
  | cons token rest ih =>
    obtain ⟨value, column⟩ := token
    rw [List.foldlM_cons, bind_assoc] at h
    obtain ⟨next, hnext, h⟩ := bind_eq_ok_iff.1 h
    -- the check admits the first token, so the reader is ready for one of its kind
    rw [Outlook.next, hcomplete] at hnext
    cases value with
    | text | truth | «variable» =>
      cases current with
      | some e => cases hnext
      | none =>
        obtain rfl := Except.ok.inj hnext
        refine ih ?_ ?_ h
        · exact hopened
        · rfl
    | opening =>
      cases current with
      | some e => cases hnext
      | none =>
        obtain rfl := Except.ok.inj hnext
        exact ih (congrArg (column :: ·) hopened) rfl h
    | closing =>
      obtain ⟨opened, complete, last⟩ := outlook
      cases opened with
      | nil => cases hnext
      | cons opening columns =>
        cases current with
        | none => cases hnext
        | some e =>
          obtain rfl := Except.ok.inj hnext
          obtain ⟨outer, inner, hclose, houter⟩ := Frames.close_of_opened_cons hopened.symm e
          rw [read_closing hclose]
          exact ih houter.symm rfl h
    | operator op =>
      cases current with
      | none => cases hnext
      | some e =>
        obtain rfl := Except.ok.inj hnext
        rw [read_operator]
        refine ih ?_ ?_ h
        · exact hopened.trans (Frames.opened_close _ _ _).symm
        · rfl

/-- What the check lets pass is an expression. -/
theorem isSome_ofTokens? {tokens : List (Located Token)} (h : checkTokens tokens = .ok ()) :
    (ofTokens? tokens).isSome := by
  rw [checkTokens] at h
  split at h
  · cases h
  · exact isSome_read rfl rfl h

end Expression

end Targeting
