import Mathlib.Data.List.Infix
import Targeting.Proofs.Rule.Balance

/-!
# The first fault of tokens

Where tokens are no expression, the check says what is wrong first, as one reads them from the left.
The tokens in front of the one at fault can still become an expression, if others follow; together
with it they cannot, whatever follows. Where all tokens can still become an expression, it is their
end that comes too early: either a parenthesis is open, and the innermost such parenthesis is
reported, or an operand is missing behind the last token.

Which parentheses are open can be said without a stack. A parenthesis is open if what is behind it
never closes more parentheses than it has opened, and it is the innermost one if none behind it is
open.

## Main definitions

* `Targeting.IsStart` — tokens that can be continued to an expression.
* `Targeting.HasOpen`, `Targeting.IsInnermostOpen` — open parentheses.
* `Targeting.Misplaced` — the fault of a token behind tokens that it cannot continue.
* `Targeting.IsStuck`, `Targeting.IsUnfinished` — tokens with an impossible one among them, and
  tokens that end too early, with what is wrong.

## Main results

* `Targeting.isStart_iff_after` — tokens can be continued exactly if each may stand where it does.
* `Targeting.OpenIn.foldlM` — the check keeps the columns of the open parentheses.
* `Targeting.IsStuck.unique`, `Targeting.IsUnfinished.unique` — at most one fault is the first one.
* `Targeting.checkTokens_eq_error_iff` — the check reports the first fault.
-/

set_option autoImplicit false

namespace Targeting

/-! ## Starts of expressions -/

/-- Whether tokens can be continued to an expression. -/
def IsStart (tokens : List Token) : Prop := ∃ rest, IsExpression (tokens ++ rest)

/-- The grammar without precedence derives exactly the tokens that balance. -/
lemma isExpression_iff_isWhole {tokens : List Token} : IsExpression tokens ↔ IsWhole tokens := by
  refine ⟨IsExpression.isWhole, fun h => ?_⟩
  -- the tree of the tokens, wherever they stand
  let located : List (Located Token) := tokens.map fun token => ⟨token, 0⟩
  have hvalues : located.map (·.value) = tokens := by
    rw [List.map_map]
    exact List.map_id tokens
  have hcheck : checkTokens located = .ok () := by
    rw [checkTokens_eq_ok_iff_isWhole, hvalues]
    exact h
  obtain ⟨tree, htree⟩ := checkTokens_eq_ok_iff.1 hcheck
  rw [← hvalues, ← htree.fits.1]
  exact tree.isExpression

/-- Tokens that complete an expression: an operand, if one is missing, and the closing parentheses
of those that are open. -/
def Balance.completion (balance : Balance) : List Token :=
  (if balance.complete then [] else [.truth true]) ++ List.replicate balance.opened .closing

/-- The completion leaves nothing open. -/
lemma Balance.after_completion (balance : Balance) :
    balance.after balance.completion = some ⟨0, true⟩ := by
  have hclosings : ∀ opened,
      after ⟨opened, true⟩ (List.replicate opened .closing) = some ⟨0, true⟩ := by
    intro opened
    induction opened with
    | zero => rfl
    | succ opened ih =>
      rw [List.replicate_succ, after_cons]
      exact ih
  obtain ⟨opened, complete⟩ := balance
  cases complete with
  | true => exact hclosings opened
  | false =>
    rw [completion, after_append]
    exact hclosings opened

/-- Tokens can be continued to an expression exactly when each of them may stand where it does. -/
theorem isStart_iff_after {tokens : List Token} :
    IsStart tokens ↔ ∃ balance, Balance.after {} tokens = some balance := by
  constructor
  · rintro ⟨rest, hrest⟩
    have hwhole := hrest.isWhole
    rw [IsWhole, Balance.after_append] at hwhole
    obtain ⟨balance, hbalance, -⟩ := Option.bind_eq_some_iff.1 hwhole
    exact ⟨balance, hbalance⟩
  · rintro ⟨balance, hbalance⟩
    refine ⟨balance.completion, isExpression_iff_isWhole.2 ?_⟩
    rw [IsWhole, Balance.after_append, hbalance]
    exact balance.after_completion

/-- The first tokens of a start can be continued. -/
lemma IsStart.of_append {tokens rest : List Token} (h : IsStart (tokens ++ rest)) :
    IsStart tokens := by
  obtain ⟨others, hothers⟩ := h
  exact ⟨rest ++ others, by rwa [← List.append_assoc]⟩

/-- An expression can be continued, for instance by nothing. -/
lemma IsExpression.isStart {tokens : List Token} (h : IsExpression tokens) : IsStart tokens :=
  ⟨[], by rwa [List.append_nil]⟩

/-- The check goes through tokens exactly when they can be continued to an expression. -/
lemma isStart_iff_foldlM {tokens : List (Located Token)} :
    IsStart (tokens.map (·.value)) ↔ ∃ outlook, tokens.foldlM Outlook.next {} = .ok outlook := by
  have hfold := Outlook.toOption_foldlM_next {} tokens
  change _ = Balance.after {} _ at hfold
  rw [isStart_iff_after, ← hfold]
  simp only [Option.map_eq_some_iff, toOption_eq_some_iff]
  constructor
  · rintro ⟨_, outlook, houtlook, -⟩
    exact ⟨outlook, houtlook⟩
  · rintro ⟨outlook, houtlook⟩
    exact ⟨_, outlook, houtlook, rfl⟩

/-! ## Open parentheses -/

/-- Whether a parenthesis in front of tokens stays open: nowhere have they closed more parentheses
than they have opened. -/
def StaysOpen (behind : List Token) : Prop :=
  ∀ start, start <+: behind → start.count .closing ≤ start.count .opening

/-- Whether a parenthesis is open at the end of tokens. -/
def HasOpen (tokens : List Token) : Prop :=
  ∃ before behind, tokens = before ++ .opening :: behind ∧ StaysOpen behind

/-- Whether the innermost parenthesis that is open at the end of tokens stands at a column. -/
def IsInnermostOpen (tokens : List (Located Token)) (column : Nat) : Prop :=
  ∃ before behind, tokens = before ++ ⟨.opening, column⟩ :: behind ∧
    StaysOpen (behind.map (·.value)) ∧ ¬ HasOpen (behind.map (·.value))

/-- Whether tokens close exactly the parentheses that they open. -/
structure IsClosed (tokens : List Token) : Prop where
  staysOpen : StaysOpen tokens
  count_eq : tokens.count .opening = tokens.count .closing

namespace IsClosed

variable {tokens rest : List Token}

/-- No tokens close no parentheses. -/
lemma nil : IsClosed [] := by
  refine ⟨fun start hstart => ?_, rfl⟩
  rw [List.prefix_nil.1 hstart]
  exact Nat.le_refl 0

/-- Any other token than a parenthesis opens and closes none. -/
lemma singleton {token : Token} (hopening : token ≠ .opening) (hclosing : token ≠ .closing) :
    IsClosed [token] := by
  constructor
  · intro start hstart
    have hnone : .closing ∉ start := fun hmem =>
      hclosing (List.mem_singleton.1 (hstart.subset hmem)).symm
    rw [List.count_eq_zero_of_not_mem hnone]
    exact Nat.zero_le _
  · simp [hopening, hclosing]

/-- Closed tokens one behind the other. -/
lemma append (h : IsClosed tokens) (hrest : IsClosed rest) : IsClosed (tokens ++ rest) := by
  constructor
  · intro start hstart
    have htokens := List.prefix_append tokens rest
    rcases List.prefix_or_prefix_of_prefix hstart htokens with hfirst | hall
    · exact h.staysOpen start hfirst
    · obtain ⟨more, rfl⟩ := hall
      have hmore := hrest.staysOpen more ((List.prefix_append_right_inj tokens).1 hstart)
      have hcount := h.count_eq
      simp only [List.count_append]
      omega
  · rw [List.count_append, List.count_append, h.count_eq, hrest.count_eq]

/-- Closed tokens between two parentheses. -/
lemma group (h : IsClosed tokens) : IsClosed (.opening :: (tokens ++ [.closing])) := by
  have hcount := h.count_eq
  constructor
  · intro start hstart
    rcases List.prefix_cons_iff.1 hstart with rfl | ⟨inner, rfl, hinner⟩
    · exact Nat.le_refl 0
    · rcases List.prefix_concat_iff.1 hinner with rfl | hinside
      · simp [hcount]
      · have hinside := h.staysOpen inner hinside
        simp only [List.count_cons_self, ne_eq, reduceCtorEq, not_false_eq_true,
          List.count_cons_of_ne]
        omega
  · simp [hcount]

/-- In closed tokens no parenthesis is open at the end: the parentheses behind it and those in front
of it would close fewer than all open. -/
lemma not_hasOpen (h : IsClosed tokens) : ¬ HasOpen tokens := by
  rintro ⟨before, behind, rfl, hbehind⟩
  have hbefore := h.staysOpen before (List.prefix_append ..)
  have hall := hbehind behind (List.prefix_refl behind)
  have hcount := h.count_eq
  simp only [List.count_append, List.count_cons_self, ne_eq, reduceCtorEq, not_false_eq_true,
    List.count_cons_of_ne] at hcount
  omega

end IsClosed

/-- The columns of the parentheses that are open at the end of tokens, innermost first. -/
inductive OpenIn : List (Located Token) → List Nat → Prop
  | nil {tokens : List (Located Token)} : IsClosed (tokens.map (·.value)) → OpenIn tokens []
  | cons {before behind : List (Located Token)} {column : Nat} {columns : List Nat} :
    OpenIn before columns → IsClosed (behind.map (·.value)) →
      OpenIn (before ++ ⟨.opening, column⟩ :: behind) (column :: columns)

namespace OpenIn

variable {tokens : List (Located Token)} {columns : List Nat}

/-- Closed tokens leave the parentheses in front of them open. -/
lemma append (h : OpenIn tokens columns) {rest : List (Located Token)}
    (hrest : IsClosed (rest.map (·.value))) : OpenIn (tokens ++ rest) columns := by
  cases h with
  | nil hclosed =>
    apply OpenIn.nil
    rw [List.map_append]
    exact hclosed.append hrest
  | cons hbefore hbehind =>
    rw [List.append_assoc, List.cons_append]
    apply hbefore.cons
    rw [List.map_append]
    exact hbehind.append hrest

/-- A closing parenthesis closes the innermost one that is open. -/
lemma closing {column : Nat} (h : OpenIn tokens (column :: columns)) (place : Nat) :
    OpenIn (tokens ++ [⟨.closing, place⟩]) columns := by
  cases h with
  | cons hbefore hbehind =>
    rw [List.append_assoc]
    apply hbefore.append
    simpa using hbehind.group

/-- Whether a parenthesis is open is seen by the columns. -/
lemma hasOpen_iff (h : OpenIn tokens columns) :
    HasOpen (tokens.map (·.value)) ↔ columns ≠ [] := by
  cases h with
  | nil hclosed => exact iff_of_false hclosed.not_hasOpen (fun hne => hne rfl)
  | cons hbefore hbehind =>
    exact iff_of_true ⟨_, _, List.map_append, hbehind.staysOpen⟩ (List.cons_ne_nil _ _)

/-- The first of the columns is that of the innermost open parenthesis. -/
lemma isInnermostOpen {column : Nat} (h : OpenIn tokens (column :: columns)) :
    IsInnermostOpen tokens column := by
  cases h with
  | cons hbefore hbehind => exact ⟨_, _, rfl, hbehind.staysOpen, hbehind.not_hasOpen⟩

/-- The check of a token keeps the columns of the open parentheses. -/
lemma next {outlook following : Outlook} (h : OpenIn tokens outlook.opened) {token : Located Token}
    (hnext : outlook.next token = .ok following) : OpenIn (tokens ++ [token]) following.opened := by
  obtain ⟨opened, complete, last⟩ := outlook
  obtain ⟨value, column⟩ := token
  cases value with
  | opening =>
    cases complete <;> cases hnext
    exact h.cons .nil
  | closing =>
    cases opened with
    | nil => cases hnext
    | cons innermost opened =>
      cases complete <;> cases hnext
      exact h.closing column
  | operator | text | truth | «variable» =>
    cases complete <;> cases hnext
    exact h.append (.singleton (by simp) (by simp))

/-- The check of tokens keeps the columns of the open parentheses.

**Proof sketch.** Induction on the tokens, the last one taken off (`next`). -/
lemma foldlM {outlook : Outlook} (h : tokens.foldlM Outlook.next {} = .ok outlook) :
    OpenIn tokens outlook.opened := by
  induction tokens using List.reverseRecOn generalizing outlook with
  | nil =>
    cases h
    exact .nil .nil
  | append_singleton tokens token ih =>
    rw [List.foldlM_append] at h
    obtain ⟨before, hbefore, hlast⟩ := bind_eq_ok_iff.1 h
    rw [List.foldlM_cons] at hlast
    obtain ⟨following, hnext, hend⟩ := bind_eq_ok_iff.1 hlast
    cases hend
    exact (ih hbefore).next hnext

end OpenIn

/-! ## Faults -/

/-- The fault of a token behind tokens that it cannot continue. -/
def Misplaced (before : List Token) : Token → Fault → Prop
  | .operator _, fault => fault = .unexpectedOperator
  | .closing, fault =>
    (¬ HasOpen before ∧ fault = .unmatchedClosing) ∨ (HasOpen before ∧ fault = .expectedOperand)
  | _, fault => fault = .expectedOperator

/-- Whether tokens have one among them that is impossible, with its fault and its column: those in
front of it can be continued to an expression, and together with it they cannot. -/
def IsStuck (tokens : List (Located Token)) (error : RuleError) : Prop :=
  ∃ before token behind, tokens = before ++ token :: behind ∧
    IsStart (before.map (·.value)) ∧ ¬ IsStart ((before ++ [token]).map (·.value)) ∧
    Misplaced (before.map (·.value)) token.value error.fault ∧ error.column = token.column

/-- Whether tokens are the beginning of an expression and end too early, with what is missing: all
of the expression, the end of a group, or an operand. -/
def IsUnfinished (tokens : List (Located Token)) (error : RuleError) : Prop :=
  ¬ IsExpression (tokens.map (·.value)) ∧
    (∃ rest, rest ≠ [] ∧ IsExpression (tokens.map (·.value) ++ rest)) ∧
    ((tokens = [] ∧ error = ⟨.emptyExpression, 1⟩) ∨
      (∃ column, IsInnermostOpen tokens column ∧ error = ⟨.unclosedOpening, column⟩) ∨
      (¬ HasOpen (tokens.map (·.value)) ∧
        ∃ before last, tokens = before ++ [last] ∧ error = ⟨.expectedOperand, last.column⟩))

/-! ### The faults that the check finds -/

/-- A token that may not stand has its own fault and its own column. -/
lemma Outlook.next_eq_error {outlook : Outlook} {token : Located Token} {error : RuleError}
    (h : outlook.next token = .error error) {before : List Token}
    (hopen : HasOpen before ↔ outlook.opened ≠ []) :
    Misplaced before token.value error.fault ∧ error.column = token.column := by
  obtain ⟨opened, complete, last⟩ := outlook
  obtain ⟨value, column⟩ := token
  cases value with
  | closing =>
    cases opened with
    | nil =>
      cases h
      exact ⟨.inl ⟨fun hhas => hopen.1 hhas rfl, rfl⟩, rfl⟩
    | cons innermost opened =>
      cases complete <;> cases h
      exact ⟨.inr ⟨hopen.2 (List.cons_ne_nil _ _), rfl⟩, rfl⟩
  | opening | operator | text | truth | «variable» =>
    cases complete <;> cases h
    exact ⟨rfl, rfl⟩

/-- Where the check stops at a token, the tokens are stuck there. -/
lemma isStuck_of_foldlM {tokens : List (Located Token)} {error : RuleError}
    (h : tokens.foldlM Outlook.next {} = .error error) : IsStuck tokens error := by
  obtain ⟨before, token, behind, outlook, rfl, hbefore, htoken⟩ := foldlM_eq_error_iff.1 h
  have hopen := (OpenIn.foldlM hbefore).hasOpen_iff
  refine ⟨before, token, behind, rfl, isStart_iff_foldlM.2 ⟨outlook, hbefore⟩, ?_,
    Outlook.next_eq_error htoken hopen⟩
  intro hstart
  obtain ⟨following, hfollowing⟩ := isStart_iff_foldlM.1 hstart
  have hfails : (before ++ [token]).foldlM Outlook.next {} = .error error :=
    foldlM_eq_error_iff.2 ⟨before, token, [], outlook, rfl, hbefore, htoken⟩
  rw [hfails] at hfollowing
  cases hfollowing

/-- What is no expression but can be continued to one is continued by something. -/
lemma IsStart.exists_proper {tokens : List Token} (h : IsStart tokens)
    (hnot : ¬ IsExpression tokens) : ∃ rest, rest ≠ [] ∧ IsExpression (tokens ++ rest) := by
  obtain ⟨rest, hrest⟩ := h
  refine ⟨rest, ?_, hrest⟩
  rintro rfl
  exact hnot (by rwa [List.append_nil] at hrest)

/-- The check of a token keeps its column. -/
lemma Outlook.last_of_next {outlook following : Outlook} {token : Located Token}
    (h : outlook.next token = .ok following) : following.last = token.column := by
  obtain ⟨opened, complete, last⟩ := outlook
  obtain ⟨value, column⟩ := token
  cases value with
  | closing =>
    cases opened with
    | nil => cases h
    | cons innermost opened =>
      cases complete <;> cases h
      rfl
  | opening | operator | text | truth | «variable» =>
    cases complete <;> cases h
    rfl

/-- The column of the last token is kept. -/
lemma Outlook.last_of_foldlM {before : List (Located Token)} {last : Located Token}
    {outlook : Outlook} (h : (before ++ [last]).foldlM next {} = .ok outlook) :
    outlook.last = last.column := by
  rw [List.foldlM_append] at h
  obtain ⟨middle, -, hlast⟩ := bind_eq_ok_iff.1 h
  rw [List.foldlM_cons] at hlast
  obtain ⟨following, hnext, hend⟩ := bind_eq_ok_iff.1 hlast
  cases hend
  exact last_of_next hnext

/-- Where the check goes through tokens and fails at their end, they are unfinished.

**Proof sketch.** What the check has opened are the parentheses that are open in the tokens, by
`Targeting.OpenIn.foldlM`, and its last column is that of the last token. If one is open, the
innermost of them is reported. Otherwise an operand is missing behind the last token. The check
would be through if neither was the case. -/
lemma isUnfinished_of_finish {tokens : List (Located Token)} (hne : tokens ≠ [])
    {outlook : Outlook} (h : tokens.foldlM Outlook.next {} = .ok outlook) {error : RuleError}
    (hfinish : outlook.finish = .error error) (hnot : ¬ IsExpression (tokens.map (·.value))) :
    IsUnfinished tokens error := by
  have hstart : IsStart (tokens.map (·.value)) := isStart_iff_foldlM.2 ⟨outlook, h⟩
  have hopen := OpenIn.foldlM h
  refine ⟨hnot, hstart.exists_proper hnot, .inr ?_⟩
  obtain ⟨before, last, rfl⟩ := (List.eq_nil_or_concat' tokens).resolve_left hne
  have hlast := Outlook.last_of_foldlM h
  obtain ⟨opened, complete, column⟩ := outlook
  cases opened with
  | cons innermost opened =>
    cases hfinish
    exact .inl ⟨innermost, hopen.isInnermostOpen, rfl⟩
  | nil =>
    have hclosed : ¬ HasOpen ((before ++ [last]).map (·.value)) := fun hhas =>
      hopen.hasOpen_iff.1 hhas rfl
    obtain rfl : column = last.column := hlast
    cases complete with
    | true => cases hfinish
    | false =>
      cases hfinish
      exact .inr ⟨hclosed, before, last, rfl, rfl⟩

/-! ### No other fault is the first one -/

/-- One list divided at two places: the places are the same, or one is in front of the other.

**Proof sketch.** Of the two fronts one is a front of the other. What lies between them is nothing,
and then the places are the same; or it begins with the item at the first place. -/
lemma cases_of_append_cons {α : Type} {before behind before' behind' : List α} {a a' : α}
    (h : before ++ a :: behind = before' ++ a' :: behind') :
    (before = before' ∧ a = a' ∧ behind = behind') ∨
      (∃ between, before' = before ++ a :: between ∧ behind = between ++ a' :: behind') ∨
      (∃ between, before = before' ++ a' :: between ∧ behind' = between ++ a :: behind) := by
  rcases List.append_eq_append_iff.1 h with ⟨between, rfl, hbehind⟩ | ⟨between, rfl, hbehind⟩
  · cases between with
    | nil =>
      obtain ⟨rfl, rfl⟩ := List.cons.inj hbehind
      exact .inl ⟨(List.append_nil before).symm, rfl, rfl⟩
    | cons b between =>
      obtain ⟨rfl, rfl⟩ := List.cons.inj hbehind
      exact .inr (.inl ⟨between, rfl, rfl⟩)
  · cases between with
    | nil =>
      obtain ⟨rfl, rfl⟩ := List.cons.inj hbehind
      exact .inl ⟨List.append_nil before', rfl, rfl⟩
    | cons b between =>
      obtain ⟨rfl, rfl⟩ := List.cons.inj hbehind
      exact .inr (.inr ⟨between, rfl, rfl⟩)

/-- A token has one fault where it stands. -/
lemma Misplaced.unique {before : List Token} {token : Token} {fault fault' : Fault}
    (h : Misplaced before token fault) (h' : Misplaced before token fault') : fault = fault' := by
  cases token with
  | closing =>
    rcases h with ⟨hnone, rfl⟩ | ⟨hopen, rfl⟩
    · rcases h' with ⟨-, rfl⟩ | ⟨hopen, -⟩
      · rfl
      · exact absurd hopen hnone
    · rcases h' with ⟨hnone, -⟩ | ⟨-, rfl⟩
      · exact absurd hopen hnone
      · rfl
  | opening | operator | text | truth | «variable» => exact Eq.trans h (Eq.symm h')

section Unique

variable {tokens : List (Located Token)} {error error' : RuleError}

/-- What has a token that is impossible cannot be continued. -/
lemma IsStuck.not_isStart (h : IsStuck tokens error) : ¬ IsStart (tokens.map (·.value)) := by
  obtain ⟨before, token, behind, rfl, -, hnot, -, -⟩ := h
  intro hstart
  rw [List.append_cons, List.map_append] at hstart
  exact hnot hstart.of_append

/-- Tokens are stuck at one place. -/
lemma IsStuck.unique (h : IsStuck tokens error) (h' : IsStuck tokens error') : error = error' := by
  obtain ⟨before, token, behind, rfl, hstart, hnot, hfault, hcolumn⟩ := h
  obtain ⟨before', token', behind', htokens, hstart', hnot', hfault', hcolumn'⟩ := h'
  rcases cases_of_append_cons htokens with ⟨rfl, rfl, -⟩ | ⟨between, rfl, -⟩ | ⟨between, rfl, -⟩
  · obtain ⟨fault, column⟩ := error
    obtain ⟨fault', column'⟩ := error'
    obtain rfl : fault = fault' := hfault.unique hfault'
    obtain rfl : column = column' := hcolumn.trans hcolumn'.symm
    rfl
  · rw [List.append_cons, List.map_append] at hstart'
    exact absurd hstart'.of_append hnot
  · rw [List.append_cons, List.map_append] at hstart
    exact absurd hstart.of_append hnot'

/-- The innermost open parenthesis is open. -/
lemma IsInnermostOpen.hasOpen {column : Nat} (h : IsInnermostOpen tokens column) :
    HasOpen (tokens.map (·.value)) := by
  obtain ⟨before, behind, rfl, hbehind, -⟩ := h
  exact ⟨_, _, List.map_append, hbehind⟩

/-- There is one innermost open parenthesis: of two that are open, one is behind the other. -/
lemma IsInnermostOpen.unique {column column' : Nat} (h : IsInnermostOpen tokens column)
    (h' : IsInnermostOpen tokens column') : column = column' := by
  obtain ⟨before, behind, rfl, hopen, hnone⟩ := h
  obtain ⟨before', behind', htokens, hopen', hnone'⟩ := h'
  rcases cases_of_append_cons htokens with ⟨-, heq, -⟩ | ⟨between, -, rfl⟩ | ⟨between, -, rfl⟩
  · exact congrArg Located.column heq
  · exact absurd ⟨_, _, List.map_append, hopen'⟩ hnone
  · exact absurd ⟨_, _, List.map_append, hopen⟩ hnone'

/-- Unfinished tokens can be continued. -/
lemma IsUnfinished.isStart (h : IsUnfinished tokens error) : IsStart (tokens.map (·.value)) := by
  obtain ⟨-, ⟨rest, -, hrest⟩, -⟩ := h
  exact ⟨rest, hrest⟩

/-- Unfinished tokens lack one thing. -/
lemma IsUnfinished.unique (h : IsUnfinished tokens error) (h' : IsUnfinished tokens error') :
    error = error' := by
  obtain ⟨-, -, h⟩ := h
  obtain ⟨-, -, h'⟩ := h'
  rcases h with ⟨rfl, rfl⟩ | ⟨column, hopen, rfl⟩ | ⟨hnone, before, last, rfl, rfl⟩
  · rcases h' with ⟨-, rfl⟩ | ⟨_, ⟨before, _, hnil, -⟩, -⟩ | ⟨-, before, _, hnil, -⟩
    · rfl
    · simp at hnil
    · simp at hnil
  · rcases h' with ⟨rfl, -⟩ | ⟨column', hopen', rfl⟩ | ⟨hnone, -⟩
    · obtain ⟨before, _, hnil, -⟩ := hopen
      simp at hnil
    · rw [hopen.unique hopen']
    · exact absurd hopen.hasOpen hnone
  · rcases h' with ⟨hnil, -⟩ | ⟨column', hopen', -⟩ | ⟨-, before', last', htokens, rfl⟩
    · simp at hnil
    · exact absurd hopen'.hasOpen hnone
    · obtain ⟨-, rfl⟩ := List.append_singleton_inj.1 htokens
      rfl

end Unique

/-! ## The check -/

/-- The fault that the check finds is the first one.

**Proof sketch.** The check stops at a token that the ones in front of it cannot be continued by
(`isStuck_of_foldlM`), or goes through all of them and finds at the end which parentheses are open
and whether an operand is missing (`isUnfinished_of_finish`). -/
lemma isStuck_or_isUnfinished_of_checkTokens {tokens : List (Located Token)} {error : RuleError}
    (h : checkTokens tokens = .error error) : IsStuck tokens error ∨ IsUnfinished tokens error := by
  have hnot : ¬ IsExpression (tokens.map (·.value)) := by
    intro hexpression
    rw [checkTokens_eq_ok_iff_isWhole.2 hexpression.isWhole] at h
    cases h
  by_cases hne : tokens = []
  · subst hne
    cases h
    have hstart : IsStart [] := isStart_iff_after.2 ⟨_, rfl⟩
    exact .inr ⟨hnot, hstart.exists_proper hnot, .inl ⟨rfl, rfl⟩⟩
  · rw [checkTokens, if_neg (by simpa using hne)] at h
    rcases bind_eq_error_iff.1 h with hfold | ⟨outlook, hfold, hfinish⟩
    · exact .inl (isStuck_of_foldlM hfold)
    · exact .inr (isUnfinished_of_finish hne hfold hfinish hnot)

/-- **The check reports the first fault.** It fails in one of two ways. Either there is a token that
is impossible: the tokens in front of it can be continued to an expression, but not any more
together with it; it has the column of this token, whose kind decides on the fault. Or the tokens
are no expression but can be continued to one; then there are none, or a parenthesis is open, the
innermost of which has the column, or an operand is missing behind the last token.

**Proof sketch.** One direction is `Targeting.isStuck_or_isUnfinished_of_checkTokens`. For the other
one, the check does not succeed, since tokens that are stuck or unfinished are no expression. So it
fails with an error of one of the two kinds. Stuck tokens cannot be continued and unfinished ones
can, so it is the same kind, and within a kind the error is unique. -/
theorem checkTokens_eq_error_iff {tokens : List (Located Token)} {error : RuleError} :
    checkTokens tokens = .error error ↔ IsStuck tokens error ∨ IsUnfinished tokens error := by
  refine ⟨isStuck_or_isUnfinished_of_checkTokens, fun h => ?_⟩
  cases hcheck : checkTokens tokens with
  | ok done =>
    -- an expression is neither stuck nor unfinished
    have hexpression : IsExpression (tokens.map (·.value)) :=
      isExpression_iff_isWhole.2 (checkTokens_eq_ok_iff_isWhole.1 hcheck)
    rcases h with hstuck | hunfinished
    · exact absurd hexpression.isStart hstuck.not_isStart
    · exact absurd hexpression hunfinished.1
  | error error' =>
    apply congrArg
    rcases isStuck_or_isUnfinished_of_checkTokens hcheck with hstuck' | hunfinished'
    · rcases h with hstuck | hunfinished
      · exact hstuck'.unique hstuck
      · exact absurd hunfinished.isStart hstuck'.not_isStart
    · rcases h with hstuck | hunfinished
      · exact absurd hunfinished'.isStart hstuck.not_isStart
      · exact hunfinished'.unique hunfinished

/-- Of several faults the first one is reported: the second group comes where an operator has to
stand, and that it is not closed does not matter. -/
example : checkTokens [⟨.opening, 1⟩, ⟨.truth true, 2⟩, ⟨.closing, 6⟩, ⟨.opening, 8⟩] =
    .error ⟨.expectedOperator, 8⟩ := rfl

end Targeting
