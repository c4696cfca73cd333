import Targeting.Proofs.Evaluation.FaultPlace
import Targeting.Proofs.Evaluation.Moment
import Targeting.Proofs.Rule.CheckFault

/-!
# The height of the stack

How many operands are on the stack at a place of a program depends on the code alone. The code of a
rule finds two operands for each of its operators and leaves exactly one in the end. This holds at
every moment of an evaluation, in the rules of the audiences referred to as well, so that a machine
has none of the faults of a stack of another height. What is left of these faults stems from the
check, of the rule itself or of one that it comes to by references.

## Main definitions

* `Targeting.LeavesOne` — code that finds its operands on a stack of a height, and leaves one.
* `Targeting.Machine.HasOperands` — a machine with the operands that the next token needs.
* `Targeting.Moment.Supplied` — a moment at which all code that waits or runs finds its operands.
* `Targeting.Engine.HasError` — the evaluation of a rule has an error, however it is asked for.

## Main results

* `Targeting.Program.leavesOne_of_ofRule` — the code of a rule leaves one operand.
* `Targeting.Machine.foldlM_leavesOne` — what is left of the code finds its operands.
* `Targeting.Moment.Supplied.step` — each step keeps a moment supplied.
* `Targeting.Moment.supplied_of_reaches` — so all moments of an evaluation are.
* `Targeting.Engine.HasError.of_isOfCheck` — the faults of the check are found by the check.
* `Targeting.Engine.stack_suffices` — no evaluation has a fault of its stack.
-/

set_option autoImplicit false

namespace Targeting

open Relation

/-! ## Code -/

/-- Whether code finds two operands for each operator on a stack of a height, and leaves one operand
in the end. -/
def LeavesOne : Nat → List (Located Token) → Prop
  | height, [] => height = 1
  | height, token :: code =>
    match token.value with
    | .operator _ => 2 ≤ height ∧ LeavesOne (height - 1) code
    | .opening | .closing => LeavesOne height code
    | _ => LeavesOne (height + 1) code

/-- An operator takes two operands and leaves one. -/
lemma leavesOne_operator {height column : Nat} {op : Operator} {code : List (Located Token)} :
    LeavesOne height (⟨.operator op, column⟩ :: code) ↔ 2 ≤ height ∧ LeavesOne (height - 1) code :=
  Iff.rfl

/-- The code of an expression leaves one operand more on the stack for the code that follows.

**Proof sketch.** Induction on the expression, for all heights and all code that follows: the
operator finds the two operands that the code before it has left. -/
lemma Expression.leavesOne_postOrder (e : Expression) (height : Nat) (code : List (Located Token)) :
    LeavesOne height (e.postOrder ++ code) ↔ LeavesOne (height + 1) code := by
  induction e generalizing height code with
  | atom a column => cases a <;> rfl
  | group opening inner closing ih => exact ih height code
  | binary op column left right ihl ihr =>
    rw [postOrder, List.append_assoc, List.append_assoc, ihl, ihr, List.singleton_append,
      leavesOne_operator]
    simp

/-- Tokens that pass the check leave one operand when they are in reverse Polish order. -/
theorem leavesOne_reversePolish {tokens : List (Located Token)} (h : checkTokens tokens = .ok ()) :
    LeavesOne 0 (reversePolish tokens) := by
  obtain ⟨tree, htree⟩ := Option.isSome_iff_exists.1 (Expression.isSome_ofTokens? h)
  obtain ⟨rfl, hfits⟩ := (Expression.ofTokens?_eq_some_iff.1 htree).fits
  have hcode := tree.leavesOne_postOrder 0 []
  rw [List.append_nil] at hcode
  rw [reversePolish_tokens hfits, hcode]
  rfl

/-- The code of a rule leaves one operand. -/
theorem Program.leavesOne_of_ofRule {snapshot : Snapshot} {policy : FieldPolicy} {rule : String}
    {program : Program} (h : ofRule snapshot policy rule = .ok program) :
    LeavesOne 0 program.code := by
  obtain ⟨tokens, -, h⟩ := bind_eq_ok_iff.1 h
  obtain ⟨_, hcheck, h⟩ := bind_eq_ok_iff.1 h
  obtain rfl := Except.ok.inj h
  exact leavesOne_reversePolish hcheck

/-! ## Machines -/

/-- Code that finds its operands does so after one token. -/
lemma Machine.next_leavesOne {around : Surroundings} {machine next : Machine}
    {token : Located Token} {code : List (Located Token)}
    (h : LeavesOne machine.stack.length (token :: code))
    (hnext : machine.next around token = .ok next) : LeavesOne next.stack.length code := by
  obtain ⟨value, column⟩ := token
  obtain ⟨stack, trace⟩ := machine
  cases value with
  | text | truth | «variable» | opening | closing =>
    obtain rfl := Except.ok.inj hnext
    exact h
  | operator op =>
    match stack with
    | [] | [_] => exact absurd h.1 (by simp)
    | right :: left :: stack =>
      obtain ⟨result, -, hresult⟩ := bind_eq_ok_iff.1 hnext
      obtain rfl := Except.ok.inj hresult
      exact h.2

/-- Code that finds its operands does so after some of its tokens, whatever references come to. -/
theorem Machine.foldlM_leavesOne {around : Surroundings} {machine last : Machine}
    {before code : List (Located Token)} (h : LeavesOne machine.stack.length (before ++ code))
    (hlast : before.foldlM (Machine.next around) machine = .ok last) :
    LeavesOne last.stack.length code := by
  induction before generalizing machine with
  | nil =>
    obtain rfl := Except.ok.inj hlast
    exact h
  | cons token before ih =>
    rw [List.foldlM_cons] at hlast
    obtain ⟨next, hnext, hlast⟩ := bind_eq_ok_iff.1 hlast
    exact ih (Machine.next_leavesOne h hnext) hlast

/-- Whether a machine has two operands for an operator that comes next, and exactly one where the
code ends. -/
def Machine.HasOperands (machine : Machine) (code : List (Located Token)) : Prop :=
  (∀ op column rest, code = ⟨.operator op, column⟩ :: rest → 2 ≤ machine.stack.length) ∧
    (code = [] → machine.stack.length = 1)

/-- A machine has its operands if the code finds them. -/
lemma Machine.hasOperands_of_leavesOne {machine : Machine} {code : List (Located Token)}
    (h : LeavesOne machine.stack.length code) : machine.HasOperands code := by
  constructor
  · rintro op column rest rfl
    exact h.1
  · rintro rfl
    exact h

/-! ## Moments -/

/-- Whether the code behind a call finds its operands when the call has its result. -/
def Call.Supplied (call : Call) : Prop := LeavesOne (call.machine.stack.length + 1) call.code

/-- Whether the code that runs finds its operands. -/
def Activity.Supplied : Activity → Prop
  | running machine code _ => LeavesOne machine.stack.length code
  | returned _ => True

/-- The code of a rule finds its operands when it begins. -/
lemma Activity.ofRule_supplied (engine : Engine) (snapshot : Snapshot) (rule : String) :
    (ofRule engine snapshot rule).Supplied := by
  unfold ofRule
  split
  · trivial
  · next program hprogram => exact Program.leavesOne_of_ofRule hprogram

namespace Call

/-- A call that a token is takes two operands from the stack. -/
lemma supplied_of_ofToken? {machine : Machine} {token : Located Token} {code : List (Located Token)}
    {last : Nat} {call : Call} (h : LeavesOne machine.stack.length (token :: code))
    (hcall : ofToken? machine token code last = some call) : call.Supplied := by
  unfold ofToken? at hcall
  split at hcall
  · next op right left stack hvalue hstack =>
    obtain ⟨name, -, rfl⟩ := Option.map_eq_some_iff.1 hcall
    simp only [LeavesOne, hvalue, hstack] at h
    exact h.2
  · cases hcall

/-- The code behind a call finds its operands when the call is handed its outcome. -/
lemma Supplied.resume {call : Call} (h : call.Supplied) (traced : Bool) (outcome : Outcome) :
    (call.resume traced outcome).Supplied := by
  cases outcome with
  | error error => trivial
  | ok result => exact h

end Call

namespace Moment

variable {engine : Engine} {snapshot : Snapshot} {traced : Bool}

/-- Whether all code finds its operands: what runs, and what waits behind the calls. -/
structure Supplied (moment : Moment) : Prop where
  activity : moment.activity.Supplied
  calls : ∀ call ∈ moment.calls, call.Supplied

/-- Each step keeps a moment supplied. -/
theorem Supplied.step {moment next : Moment} (h : moment.Supplied)
    (hstep : moment.step engine snapshot traced = some next) : next.Supplied := by
  cases steps_of_step hstep with
  | returns =>
    obtain ⟨hcall, hcalls⟩ := List.forall_mem_cons.1 h.calls
    exact ⟨hcall.resume traced _, hcalls⟩
  | ends => exact ⟨trivial, h.calls⟩
  | token hnext => exact ⟨Machine.next_leavesOne h.activity hnext, h.calls⟩
  | enters hcall =>
    have hwaiting := Call.supplied_of_ofToken? h.activity hcall
    exact ⟨Activity.ofRule_supplied engine snapshot _, List.forall_mem_cons.2 ⟨hwaiting, h.calls⟩⟩

/-- All moments of an evaluation are supplied. -/
theorem supplied_of_reaches {audience rule : String} {moment : Moment}
    (h : Reaches engine snapshot traced (start engine snapshot audience rule) moment) :
    moment.Supplied := by
  induction h with
  | refl => exact ⟨Activity.ofRule_supplied engine snapshot rule, List.forall_mem_nil _⟩
  | tail _ hstep ih => exact ih.step hstep

end Moment

namespace Engine

variable {engine : Engine} {snapshot : Snapshot}

/-! ## Errors -/

/-- A reference that is not entered is at fault as a reference. -/
lemma entry_fails (engine : Engine) (snapshot : Snapshot) (trail : Trail) (name : String) :
    FailsOnlyWith (·.origin = .reference) (engine.entry snapshot trail name) := by
  unfold entry Snapshot.findRule
  split_ifs
  · exact .error rfl
  · exact .error rfl
  · split
    · exact .error rfl
    · exact .ok _

/-- A rule that is at fault by itself does not lack an operand. -/
lemma FailsAt.ne_missingOperand {trail : Trail} {rule : String} {error : RuleError}
    (h : engine.FailsAt snapshot trail rule error) (op : Operator) :
    error.fault ≠ .missingOperand op := by
  intro hop
  cases h with
  | reading hread =>
    have horigin := (Program.ofRule_fails snapshot engine.policy rule error hread).origin
    rw [hop] at horigin
    cases horigin
  | tree _ hfails => cases hfails <;> cases hop
  | refused _ _ hentry =>
    obtain rfl : _ = Fault.missingOperand op := hop
    cases entry_fails engine snapshot trail _ _ hentry

/-- A rule that is at fault by itself with a fault of the check has tokens that do not pass. -/
theorem FailsAt.of_isOfCheck {trail : Trail} {rule : String} {error : RuleError}
    (h : engine.FailsAt snapshot trail rule error) (hcheck : error.fault.isOfCheck = true) :
    ∃ tokens, tokensOf snapshot engine.policy rule = .ok tokens ∧
      checkTokens tokens = .error error := by
  cases h with
  | reading hread => exact Program.exists_tokens_of_isOfCheck hread hcheck
  | tree _ hfails => cases hfails <;> cases hcheck
  | refused _ _ hentry =>
    have horigin := (Fault.origin_of_isOfCheck hcheck).symm.trans
      (entry_fails engine snapshot trail _ _ hentry)
    cases horigin

/-- Whether the evaluation of a rule as that of an audience has an error, in one of the three ways
to ask for it: the rule by itself, the rule with the audience's name, or the audience with its
rule. -/
inductive HasError (engine : Engine) (snapshot : Snapshot) (audience rule : String)
    (error : RuleError) : Prop
  | outcome : audience = snapshot.audience → engine.outcome snapshot rule = .error error →
      HasError engine snapshot audience rule error
  | outcomeFor : engine.outcomeFor snapshot audience rule = .error error →
      HasError engine snapshot audience rule error
  | report : snapshot.rule? audience = some rule →
      engine.report snapshot audience = .error (.rule error) →
      HasError engine snapshot audience rule error

/-- An evaluation has its error on the audience's own trail, whichever way it is asked for. -/
lemma HasError.outcomeOn {audience rule : String} {error : RuleError}
    (h : engine.HasError snapshot audience rule error) :
    engine.outcomeOn snapshot false (.root audience) rule = .error error := by
  cases h with
  | outcome haudience h =>
    subst haudience
    exact map_eq_error_iff.1 h
  | outcomeFor h => exact map_eq_error_iff.1 h
  | report hrule h =>
    obtain ⟨rule', hrule', -, houtcome⟩ := report_eq_error_iff.1 h
    obtain rfl : rule = rule' := Option.some.inj (hrule.symm.trans hrule')
    have hmap := engine.outcomeOn_map_fst snapshot false engine.traced (.root audience) rule
    rw [houtcome] at hmap
    exact map_eq_error_iff.1 hmap

/-- No evaluation lacks an operand. -/
lemma HasError.ne_missingOperand {audience rule : String} {error : RuleError}
    (h : engine.HasError snapshot audience rule error) (op : Operator) :
    error.fault ≠ .missingOperand op := by
  obtain ⟨trail, source, -, -, hfails⟩ := exists_failsAt h.outcomeOn
  exact hfails.ne_missingOperand op

/-- A fault of the check is found by the check, for the rule that is evaluated or for one that it
comes to by references. -/
theorem HasError.of_isOfCheck {audience rule : String} {error : RuleError}
    (h : engine.HasError snapshot audience rule error) (hcheck : error.fault.isOfCheck = true) :
    ∃ trail source tokens,
      ReflTransGen (engine.Enters snapshot) (.root audience, rule) (trail, source) ∧
        tokensOf snapshot engine.policy source = .ok tokens ∧
        checkTokens tokens = .error error := by
  obtain ⟨trail, source, hreach, -, hfails⟩ := exists_failsAt h.outcomeOn
  obtain ⟨tokens, htokens, hfails⟩ := hfails.of_isOfCheck hcheck
  exact ⟨trail, source, tokens, hreach, htokens, hfails⟩

/-- A rule to which the rule of an audience comes by references is that rule, or the rule of an
audience to which the references of the first audience lead. -/
lemma eq_or_refers_of_enters {trail last : Trail} {audience rule source : String}
    (hrule : snapshot.rule? audience = some rule)
    (h : ReflTransGen (engine.Enters snapshot) (trail, rule) (last, source)) :
    source = rule ∨ ∃ name, TransGen (snapshot.Refers engine.policy) audience name ∧
      snapshot.rule? name = some source := by
  generalize hend : (last, source) = place at h
  induction h generalizing last source with
  | refl => exact .inl (congrArg Prod.snd hend)
  | @tail middle _ hreach hstep ih =>
    obtain ⟨hrefers, hentry⟩ := hstep
    obtain rfl := (congrArg Prod.snd hend : source = _)
    obtain ⟨-, -, hsource⟩ := entry_eq_ok_iff.1 hentry
    rcases ih rfl with rfl | ⟨name, hname, hmiddle⟩
    · exact .inr ⟨_, .single ((Snapshot.refers_iff hrule).2 hrefers), hsource⟩
    · exact .inr ⟨_, hname.tail ((Snapshot.refers_iff hmiddle).2 hrefers), hsource⟩

/-- The report on an audience finds an expression empty only if its references lead to an audience
with a blank rule: its own rule has been looked at before. -/
theorem exists_isBlank_of_report {audience : String} {column : Nat}
    (h : engine.report snapshot audience = .error (.rule ⟨.emptyExpression, column⟩)) :
    ∃ name inner, TransGen (snapshot.Refers engine.policy) audience name ∧
      snapshot.rule? name = some inner ∧ isBlank inner = true := by
  obtain ⟨rule, hrule, hblank, -⟩ := report_eq_error_iff.1 h
  have herror : engine.HasError snapshot audience rule ⟨.emptyExpression, column⟩ :=
    .report hrule h
  obtain ⟨trail, source, tokens, hreach, htokens, hfails⟩ := herror.of_isOfCheck rfl
  have hsource := isBlank_of_checkTokens htokens hfails
  rcases eq_or_refers_of_enters hrule hreach with rfl | ⟨name, hname, hinner⟩
  · rw [hsource] at hblank
    cases hblank
  · exact ⟨name, source, hname, hinner, hsource⟩

/-- **The stack is never at fault.** Whatever references come to, the machine that runs a rule has
two operands for every operator and exactly one where the code ends; and so it has at every moment
of the evaluation of a rule as that of an audience, also inside references. However the evaluation
is asked for, it never lacks an operand; and it finds an expression empty, or an operator missing,
only as the check does for the tokens of the rule or of one that it comes to by references. The
report on an audience finds an expression empty only if its references lead to an audience with a
blank rule. A rule is blank exactly when it has no lexemes.

**Proof sketch.** The code of a program leaves one operand where there was none, by
`Targeting.Program.leavesOne_of_ofRule`, and running the front of it leaves the same of what is
left, so no operator lacks an operand. At every moment of an evaluation the code is supplied, by
induction over the moments. The remaining parts say where errors come from, and have lemmas of their
own. -/
theorem stack_suffices (engine : Engine) (snapshot : Snapshot) (audience rule : String) :
    (∀ program, Program.ofRule snapshot engine.policy rule = .ok program →
      ∀ around before code machine, program.code = before ++ code →
        before.foldlM (Machine.next around) {} = .ok machine → machine.HasOperands code) ∧
    (∀ traced moment,
      Moment.Reaches engine snapshot traced (.start engine snapshot audience rule) moment →
      ∀ machine code last, moment.activity = .running machine code last →
        machine.HasOperands code) ∧
    (∀ error, engine.HasError snapshot audience rule error →
      (∀ op, error.fault ≠ .missingOperand op) ∧
        (error.fault = .emptyExpression ∨ error.fault = .expectedOperator →
          ∃ trail source tokens,
            ReflTransGen (engine.Enters snapshot) (.root audience, rule) (trail, source) ∧
              tokensOf snapshot engine.policy source = .ok tokens ∧
              checkTokens tokens = .error error)) ∧
    (∀ column, engine.report snapshot audience = .error (.rule ⟨.emptyExpression, column⟩) →
      ∃ name inner, TransGen (snapshot.Refers engine.policy) audience name ∧
        snapshot.rule? name = some inner ∧ isBlank inner = true) ∧
    (isBlank rule = true ↔ lexemesOf rule = .ok []) := by
  refine ⟨fun program hprogram around before code machine hcode hrun => ?_,
    fun traced moment hmoment machine code last hactivity => ?_,
    fun error herror => ⟨herror.ne_missingOperand, fun hfault => herror.of_isOfCheck ?_⟩,
    fun column => exists_isBlank_of_report, isBlank_iff_lexemesOf⟩
  · have hwhole : LeavesOne ({} : Machine).stack.length program.code :=
      Program.leavesOne_of_ofRule hprogram
    rw [hcode] at hwhole
    exact Machine.hasOperands_of_leavesOne (Machine.foldlM_leavesOne hwhole hrun)
  · have hsupplied : moment.activity.Supplied := (Moment.supplied_of_reaches hmoment).activity
    rw [hactivity] at hsupplied
    exact Machine.hasOperands_of_leavesOne hsupplied
  · rcases hfault with hfault | hfault <;> rw [hfault] <;> rfl

/-- A report that fails with a blank rule, and the moment before its first operator, which finds
both of its operands.

**Proof sketch.** The error of the report and the token that comes next after two steps are
computed. The audience with the blank rule and the operands on the stack are those of the theorem.
-/
theorem stack_suffices_blank :
    let snapshot : Snapshot :=
      { rules := .ofList [("k", "Audience == 'm' && 'a' == 'a'"), ("m", " ")] }
    Engine.report {} snapshot "k" = .error (.rule ⟨.emptyExpression, 1⟩) ∧
      (∃ name inner, TransGen (snapshot.Refers .lenient) "k" name ∧
        snapshot.rule? name = some inner ∧ isBlank inner = true) ∧
      ∃ moment machine op column rest last,
        Moment.Reaches {} snapshot false
          (.start {} snapshot "k" "Audience == 'm' && 'a' == 'a'") moment ∧
        moment.activity = .running machine (⟨.operator op, column⟩ :: rest) last ∧
        2 ≤ machine.stack.length := by
  intro snapshot
  have herror : Engine.report {} snapshot "k" = .error (.rule ⟨.emptyExpression, 1⟩) := by
    unfold snapshot
    decide +kernel
  obtain ⟨-, hmoments, -, hreport, -⟩ :=
    stack_suffices {} snapshot "k" "Audience == 'm' && 'a' == 'a'"
  have hsecond : ((Moment.start {} snapshot "k" "Audience == 'm' && 'a' == 'a'").after {} snapshot
      false 2).bind (fun moment => match moment.activity with
        | .running _ code _ => code.head?
        | .returned _ => none) = some ⟨.operator .equal, 10⟩ := by
    unfold snapshot
    decide +kernel
  obtain ⟨moment, hmoment, hnext⟩ := Option.bind_eq_some_iff.1 hsecond
  have hreach := Moment.reaches_of_after hmoment
  split at hnext
  · next machine code last hactivity =>
    obtain ⟨rest, rfl⟩ := List.head?_eq_some_iff.1 hnext
    obtain ⟨hheight, -⟩ := hmoments false moment hreach machine _ last hactivity
    exact ⟨herror, hreport 1 herror, moment, machine, _, _, rest, last, hreach, hactivity,
      hheight _ _ rest rfl⟩
  · cases hnext

end Engine

end Targeting
