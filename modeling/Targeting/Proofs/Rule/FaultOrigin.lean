import Mathlib.Order.Nat
import Mathlib.Tactic.SplitIfs
import Targeting.Proofs.Failure
import Targeting.Rule.Program

/-!
# Where faults come from

A fault is found while a rule is read, while an operator is applied or a result is taken, or while a
reference is followed. A rule that cannot be read has a fault of the first kind, whatever it says of
audiences.

All that is read of a rule has the column of one of its characters: the lexemes and the tokens, and
the place where the rule is at fault. Only a rule without tokens may have no characters; it is at
fault in the first column nevertheless. What carries this through the reading of the characters is
where the pending lexeme begins: at a character that has been read.

## Main definitions

* `Targeting.Fault.origin` — the part of an evaluation in which a fault arises.
* `Targeting.IsColumn` — the columns of a text.
* `Targeting.RuleError.FromReading` — the errors that reading a text may have.
* `Targeting.ReadState.StartsWithin` — what has been read begins in the text read so far.

## Main results

* `Targeting.lexemesFrom_ensures`, `Targeting.tokensOf_ensures` — the columns of lexemes and tokens,
  and the errors where there are none.
* `Targeting.Program.ofRule_fails` — the errors of a rule that has no program.
-/

set_option autoImplicit false

namespace Targeting

/-- A part of an evaluation: the reading of a rule, its operators and its result, or a reference. -/
inductive Fault.Origin where
  | reading
  | operation
  | reference
deriving DecidableEq, Repr, Inhabited

/-- The part of an evaluation in which a fault arises. -/
def Fault.origin : Fault → Origin
  | unterminatedLiteral | invalidEscape | unexpectedQuote | unknownOperator _ => .reading
  | unmatchedClosing | unclosedOpening | expectedOperator | unexpectedOperator => .reading
  | expectedOperand | unknownVariable _ | emptyExpression => .reading
  | missingOperand _ | nonBooleanResult _ | unsupportedComparison _ _ _ => .operation
  | unknownAudience _ | cyclicReference _ | depthExceeded _ => .reference

/-! ## Columns -/

/-- Whether a column is that of a character in a text of a length. -/
def IsColumn (length column : Nat) : Prop := 1 ≤ column ∧ column ≤ length

/-- The columns of a text are columns of a longer one. -/
lemma IsColumn.mono {length longer column : Nat} (h : IsColumn length column)
    (hle : length ≤ longer) : IsColumn longer column :=
  ⟨h.1, h.2.trans hle⟩

/-- The last character of a text has the length of the text as its column. -/
lemma isColumn_succ (length : Nat) : IsColumn (length + 1) (length + 1) :=
  ⟨length.succ_pos, le_rfl⟩

/-- Whether an error may come from the reading of a text of a length: a fault of reading, at one of
the characters. -/
structure RuleError.FromReading (length : Nat) (error : RuleError) : Prop where
  origin : error.fault.origin = .reading
  column : IsColumn length error.column

/-- What may come from reading a text may come from reading a longer one. -/
lemma RuleError.FromReading.mono {length longer : Nat} {error : RuleError}
    (h : error.FromReading length) (hle : length ≤ longer) : error.FromReading longer :=
  ⟨h.origin, h.column.mono hle⟩

/-- Whether a reading of located things keeps to the columns of a text of a length, also where it
fails. -/
abbrev KeepsColumns {α : Type} (length : Nat) (x : Except RuleError (List (Located α))) : Prop :=
  Ensures (RuleError.FromReading length) (fun things => ∀ thing ∈ things,
    IsColumn length thing.column) x

/-! ## Lexemes -/

namespace Pending

/-- Whether a pending lexeme begins in a text of a length. -/
def StartsWithin (length : Nat) : Pending → Prop
  | nothing => True
  | word start _ | quoted start _ => IsColumn length start

variable {length : Nat} {pending : Pending}

/-- A pending lexeme begins in a longer text, too. -/
lemma StartsWithin.mono {longer : Nat} (h : pending.StartsWithin length) (hle : length ≤ longer) :
    pending.StartsWithin longer := by
  cases pending with
  | nothing => trivial
  | word | quoted => exact IsColumn.mono h hle

/-- One more character begins a lexeme at its own column, or leaves the beginning as it is. -/
lemma StartsWithin.push (h : pending.StartsWithin length) (c : Char) :
    (pending.push (length + 1) c).StartsWithin (length + 1) := by
  cases pending with
  | nothing => exact isColumn_succ length
  | word | quoted => exact IsColumn.mono h length.le_succ

/-- A word that ends has the column at which it begins. -/
lemma StartsWithin.flush (h : pending.StartsWithin length) :
    ∀ lexeme ∈ pending.flush, IsColumn length lexeme.column := by
  cases pending with
  | word start chars => exact List.forall_mem_singleton.2 h
  | nothing | quoted => exact List.forall_mem_nil _

end Pending

namespace ReadState

/-- Whether what has been read begins in the text read so far, which has a length. A backslash is a
character of this text. -/
def StartsWithin (length : Nat) : ReadState → Prop
  | plain pending => pending.StartsWithin length
  | escaping pending => pending.StartsWithin length ∧ 1 ≤ length
  | operator _ start => IsColumn length start

variable {length : Nat}

/-- What reading the character behind a text of a length has to ensure. -/
abbrev ReadsNext (length : Nat) (x : Except RuleError (List (Located Lexeme) × ReadState)) : Prop :=
  Ensures (RuleError.FromReading (length + 1))
    (fun next => (∀ lexeme ∈ next.1, IsColumn (length + 1) lexeme.column) ∧
      next.2.StartsWithin (length + 1)) x

/-- What reading a character that nothing special precedes ensures. -/
lemma readPlain_ensures {pending : Pending} (h : pending.StartsWithin length) (c : Char) :
    ReadsNext length (readPlain pending (length + 1) c) := by
  have hlonger := h.mono length.le_succ
  have hflush := hlonger.flush
  have hlast := isColumn_succ length
  unfold readPlain
  split_ifs
  · exact .ok ⟨List.forall_mem_nil _, hlonger, length.succ_pos⟩
  · cases pending with
    | nothing => exact .ok ⟨List.forall_mem_nil _, hlast⟩
    | word => exact .error ⟨rfl, hlast⟩
    | quoted => exact .ok ⟨List.forall_mem_singleton.2 hlonger, trivial⟩
  · exact .ok ⟨List.forall_mem_nil _, h.push c⟩
  · exact .ok ⟨hflush, trivial⟩
  · exact .ok ⟨List.forall_mem_append.2 ⟨hflush, List.forall_mem_singleton.2 hlast⟩, trivial⟩
  · exact .ok ⟨List.forall_mem_append.2 ⟨hflush, List.forall_mem_singleton.2 hlast⟩, trivial⟩
  · exact .ok ⟨hflush, hlast⟩
  · exact .ok ⟨List.forall_mem_nil _, h.push c⟩

/-- What reading one character ensures. -/
lemma read_ensures {state : ReadState} (h : state.StartsWithin length) (c : Char) :
    ReadsNext length (state.read (length + 1) c) := by
  cases state with
  | plain pending => exact readPlain_ensures h c
  | escaping pending =>
    simp only [read]
    split_ifs
    · exact .ok ⟨List.forall_mem_nil _, h.1.push c⟩
    · exact .error ⟨rfl, isColumn_succ length⟩
  | operator first start =>
    have hstart : IsColumn (length + 1) start := IsColumn.mono h length.le_succ
    simp only [read]
    split
    · exact .ok ⟨List.forall_mem_singleton.2 hstart, trivial⟩
    · exact .error ⟨rfl, hstart⟩

/-- What the end of a rule ensures. -/
lemma finish_ensures {state : ReadState} (h : state.StartsWithin length) :
    KeepsColumns length (state.finish (length + 1)) := by
  cases state with
  | plain pending =>
    cases pending with
    | nothing | word => exact .ok (Pending.StartsWithin.flush h)
    | quoted => exact .error ⟨rfl, h⟩
  | escaping pending =>
    cases pending with
    | nothing | word => exact .error ⟨rfl, h.2, le_rfl⟩
    | quoted => exact .error ⟨rfl, h.1⟩
  | operator first start => exact .error ⟨rfl, h⟩

end ReadState

/-- The rest of a rule keeps to the columns of the whole rule, if what has been read begins in the
text in front of it. -/
theorem lexemesFrom_ensures {state : ReadState} {length : Nat} (h : state.StartsWithin length)
    (text : List Char) :
    KeepsColumns (length + text.length) (lexemesFrom state (length + 1) text) := by
  induction text generalizing state length with
  | nil => exact ReadState.finish_ensures h
  | cons c rest ih =>
    have hread := ReadState.read_ensures h c
    have hlength : length + (c :: rest).length = length + 1 + rest.length := by
      rw [List.length_cons]
      omega
    rw [lexemesFrom, hlength]
    generalize state.read (length + 1) c = x at hread ⊢
    cases hread with
    | error herror => exact .error (herror.mono (Nat.le_add_right _ _))
    | ok hnext =>
      refine (ih hnext.2).bind fun others hothers => .ok ?_
      refine List.forall_mem_append.2 ⟨fun lexeme hlexeme => ?_, hothers⟩
      exact (hnext.1 lexeme hlexeme).mono (Nat.le_add_right _ _)

/-- Lexemes stand at characters of the rule, and so does what is at fault in a rule without them. -/
lemma lexemesOf_ensures (rule : String) : KeepsColumns rule.length (lexemesOf rule) := by
  have hstart : ReadState.StartsWithin 0 (.plain .nothing) := trivial
  have hlexemes := lexemesFrom_ensures hstart rule.toList
  rwa [Nat.zero_add, String.length_toList] at hlexemes

/-! ## Tokens -/

namespace Token

/-- A lexeme that is no token is at fault in reading. -/
lemma ofLexeme_fails (snapshot : Snapshot) (policy : FieldPolicy) (lexeme : Lexeme) :
    FailsOnlyWith (·.origin = .reading) (ofLexeme snapshot policy lexeme) := by
  cases lexeme with
  | word word =>
    simp only [ofLexeme, ofWord]
    split
    · exact .ok _
    · exact .ok _
    · split_ifs
      · exact .ok _
      · exact .error rfl
    · exact .error rfl
  | quoted | operator | opening | closing => exact .ok _

/-- Tokens stand where their lexemes do, and so does a word that names nothing. -/
lemma ofLexemes_ensures (snapshot : Snapshot) (policy : FieldPolicy) {length : Nat}
    {lexemes : List (Located Lexeme)} (h : ∀ lexeme ∈ lexemes, IsColumn length lexeme.column) :
    KeepsColumns length (ofLexemes snapshot policy lexemes) := by
  induction lexemes with
  | nil => exact .ok (List.forall_mem_nil _)
  | cons lexeme rest ih =>
    obtain ⟨hlexeme, hrest⟩ := List.forall_mem_cons.1 h
    unfold ofLexemes
    split
    · next fault hfault =>
      exact .error ⟨ofLexeme_fails snapshot policy lexeme.value fault hfault, hlexeme⟩
    · exact (ih hrest).bind fun tokens htokens => .ok (List.forall_mem_cons.2 ⟨hlexeme, htokens⟩)

end Token

/-- **Tokens stand at characters of the rule.** So does what is at fault in a rule without
tokens. -/
theorem tokensOf_ensures (snapshot : Snapshot) (policy : FieldPolicy) (rule : String) :
    KeepsColumns rule.length (tokensOf snapshot policy rule) :=
  (lexemesOf_ensures rule).bind fun _ h => Token.ofLexemes_ensures snapshot policy h

/-! ## Programs -/

namespace Outlook

/-- Whether the check has seen only tokens at columns of a text of a length. -/
structure StartsWithin (length : Nat) (outlook : Outlook) : Prop where
  opened : ∀ column ∈ outlook.opened, IsColumn length column
  last : IsColumn length outlook.last

variable {length : Nat} {outlook : Outlook}

/-- What the check of one token ensures.

**Proof sketch.** By cases on the token. Every error has the column of the token. If the check goes
on, the column of the token is the last one and may be opened, and columns that are closed are
dropped from those that were open. -/
lemma next_ensures (h : outlook.StartsWithin length) {token : Located Token}
    (htoken : IsColumn length token.column) :
    Ensures (RuleError.FromReading length) (StartsWithin length) (outlook.next token) := by
  unfold next
  split
  · split_ifs
    · exact .error ⟨rfl, htoken⟩
    · exact .ok ⟨List.forall_mem_cons.2 ⟨htoken, h.opened⟩, htoken⟩
  · split
    · exact .error ⟨rfl, htoken⟩
    · next hopened =>
      have hrest := h.opened
      rw [hopened] at hrest
      split_ifs
      · exact .ok ⟨(List.forall_mem_cons.1 hrest).2, htoken⟩
      · exact .error ⟨rfl, htoken⟩
  · split_ifs
    · exact .ok ⟨h.opened, htoken⟩
    · exact .error ⟨rfl, htoken⟩
  · split_ifs
    · exact .error ⟨rfl, htoken⟩
    · exact .ok ⟨h.opened, htoken⟩

/-- The end of the tokens is at fault only in reading. -/
lemma finish_fails (h : outlook.StartsWithin length) :
    FailsOnlyWith (RuleError.FromReading length) outlook.finish := by
  unfold finish
  split
  · next hopened => exact .error ⟨rfl, h.opened _ (hopened ▸ List.mem_cons_self ..)⟩
  · split_ifs
    · exact .ok _
    · exact .error ⟨rfl, h.last⟩

end Outlook

/-- Tokens that form no expression are at fault at one of them, or in the first column if there is
none. -/
lemma checkTokens_fails {length : Nat} {tokens : List (Located Token)}
    (h : ∀ token ∈ tokens, IsColumn length token.column) :
    FailsOnlyWith (RuleError.FromReading (max 1 length)) (checkTokens tokens) := by
  have hfirst : IsColumn (max 1 length) 1 := ⟨le_rfl, le_max_left _ _⟩
  unfold checkTokens
  split_ifs
  · exact .error ⟨rfl, hfirst⟩
  · have hchecked : Ensures (RuleError.FromReading (max 1 length))
        (Outlook.StartsWithin (max 1 length)) (tokens.foldlM Outlook.next {}) :=
      .foldlM (fun token htoken _ houtlook =>
        Outlook.next_ensures houtlook ((h token htoken).mono (le_max_right _ _)))
        ⟨List.forall_mem_nil _, hfirst⟩
    intro error herror
    rcases bind_eq_error_iff.1 herror with hfold | ⟨outlook, houtlook, hfinish⟩
    · exact hchecked.failsOnlyWith error hfold
    · exact Outlook.finish_fails (hchecked.of_eq_ok houtlook) error hfinish

/-- **A rule that cannot be read is at fault in reading.** Whatever the audiences of the snapshot,
a rule without a program has no fault of an operation or of a reference, and its fault is at one of
its characters, or in the first column if it has none. -/
theorem Program.ofRule_fails (snapshot : Snapshot) (policy : FieldPolicy) (rule : String) :
    FailsOnlyWith (RuleError.FromReading (max 1 rule.length)) (ofRule snapshot policy rule) := by
  have htokens := tokensOf_ensures snapshot policy rule
  intro error herror
  rcases bind_eq_error_iff.1 herror with hread | ⟨tokens, hread, herror⟩
  · exact (htokens.failsOnlyWith error hread).mono (le_max_right _ _)
  · rcases bind_eq_error_iff.1 herror with hcheck | ⟨_, _, hpure⟩
    · exact checkTokens_fails (htokens.of_eq_ok hread) error hcheck
    · cases hpure

end Targeting
