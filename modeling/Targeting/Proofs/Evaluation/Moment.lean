import Mathlib.Data.List.Perm.Subperm
import Mathlib.Logic.Relation
import Targeting.Proofs.Evaluation.Reference

/-!
# The moments of an evaluation

An evaluation with all its references goes through *moments*. There is one trail, which a reference
that is followed lengthens and which is cut back when the reference returns; and there is a stack of
*calls*, the operators that wait for the audiences they refer to. No moment knows what an audience
that it waits for will come to.

The moments of a rule end with the outcome of the rule, whatever the limit is, and the trail is at
every moment what the calls say. The rule of an audience begins on the audience's own trail: this is
the outcome from which `Engine.outcome`, `Engine.outcomeFor` and `Engine.report` take their results.

## Main definitions

* `Targeting.Call` — an operator that waits for the audience it refers to.
* `Targeting.Moment` — the trail, the calls and what the evaluation is at.
* `Targeting.Moment.step`, `Targeting.Moment.Reaches` — the next moment, and all later ones.
* `Targeting.Moment.Steps` — what a step can be.
* `Targeting.Moment.Sound` — what holds of the trail at every moment.

## Main results

* `Targeting.Moment.follow_reaches` — a reference returns, with the trail as it found it.
* `Targeting.Moment.ofRule_reaches` — a rule comes to its outcome.
* `Targeting.Moment.Sound.step` — each step keeps the trail sound.
* `Targeting.Moment.trail_of_reaches` — the trail at every moment of an evaluation, which ends.
-/

set_option autoImplicit false

namespace Targeting

open Relation

/-! ## Moments -/

/-- The trail without the audience that was entered last. -/
def Trail.leave (trail : Trail) : Trail := ⟨trail.chain.tail, trail.depth - 1⟩

/-- An operator that waits for the audience that it refers to: the operator with its operands as
they were written, the machine without these operands, and what its rule goes on with. -/
structure Call where
  name : String
  op : Operator
  column : Nat
  left : Operand
  right : Operand
  machine : Machine
  code : List (Located Token)
  /-- The column of the last token of the rule. -/
  last : Nat

/-- What an evaluation is at: the code of a rule, or an outcome that is handed back. -/
inductive Activity where
  | running (machine : Machine) (code : List (Located Token)) (last : Nat)
  | returned (outcome : Outcome)

/-- A moment of an evaluation: the trail, the operators that wait, the innermost first, and what the
evaluation is at. -/
structure Moment where
  trail : Trail
  calls : List Call
  activity : Activity

namespace Call

/-- The call that a token is: an operator that refers to an audience by the two operands on top of
the stack. -/
def ofToken? (machine : Machine) (token : Located Token) (code : List (Located Token))
    (last : Nat) : Option Call :=
  match token.value, machine.stack with
  | .operator op, right :: left :: stack =>
    (op.reference? (Operand.orient left right).1 (Operand.orient left right).2).map fun name =>
      ⟨name, op, token.column, left, right, { machine with stack }, code, last⟩
  | _, _ => none

/-- The machine of a call after the audience has an outcome. -/
def after (traced : Bool) (call : Call) (result : Bool × Trace) : Machine :=
  ⟨.literal (.truth result.1) :: call.machine.stack,
    call.machine.trace ++
      if traced then result.2 ++ [⟨call.left, call.op, call.right, result.1⟩] else result.2⟩

/-- What the evaluation is at when a call has its outcome: an error ends the rule of the call. -/
def resume (traced : Bool) (call : Call) : Outcome → Activity
  | .error error => .returned (.error error)
  | .ok result => .running (call.after traced result) call.code call.last

end Call

/-- What the evaluation is at when it begins with a rule: the code of its program, or its first
fault. -/
def Activity.ofRule (engine : Engine) (snapshot : Snapshot) (rule : String) : Activity :=
  match Program.ofRule snapshot engine.policy rule with
  | .error error => .returned (.error error)
  | .ok program => .running {} program.code ((program.code.getLast?.map (·.column)).getD 1)

/-- Surroundings without other audiences, for the tokens that do not refer to any. -/
def Surroundings.alone (snapshot : Snapshot) (traced : Bool) : Surroundings :=
  ⟨snapshot, traced, fun name column => .error ⟨.unknownAudience name, column⟩⟩

namespace Moment

/-- The moment after a call is made. A reference that is refused hands back its error and leaves all
else alone; one that is followed lengthens the trail. -/
def follow (engine : Engine) (snapshot : Snapshot) (moment : Moment) (call : Call) : Moment :=
  let refuse (fault : Fault) : Moment :=
    { moment with activity := .returned (.error ⟨fault, call.column⟩) }
  if call.name ∈ moment.trail.chain then refuse (.cyclicReference call.name)
  else if engine.depthLimit ≤ moment.trail.depth then refuse (.depthExceeded engine.depthLimit)
  else
    match snapshot.rule? call.name with
    | none => refuse (.unknownAudience call.name)
    | some rule =>
      ⟨moment.trail.enter call.name, call :: moment.calls, .ofRule engine snapshot rule⟩

/-- The next moment; none after the last one. -/
def step (engine : Engine) (snapshot : Snapshot) (traced : Bool) (moment : Moment) :
    Option Moment :=
  match moment.activity with
  | .returned outcome =>
    match moment.calls with
    | [] => none
    | call :: calls => some ⟨moment.trail.leave, calls, call.resume traced outcome⟩
  | .running machine [] last => some { moment with activity := .returned (machine.finish last) }
  | .running machine (token :: code) last =>
    match Call.ofToken? machine token code last with
    | some call => some (moment.follow engine snapshot call)
    | none =>
      match machine.next (.alone snapshot traced) token with
      | .error error => some { moment with activity := .returned (.error error) }
      | .ok machine => some { moment with activity := .running machine code last }

/-- Whether the second moment is the first one or comes after it. -/
def Reaches (engine : Engine) (snapshot : Snapshot) (traced : Bool) : Moment → Moment → Prop :=
  ReflTransGen fun moment next => moment.step engine snapshot traced = some next

/-- The first moment of the evaluation of a rule as that of an audience. -/
def start (engine : Engine) (snapshot : Snapshot) (audience rule : String) : Moment :=
  ⟨.root audience, [], .ofRule engine snapshot rule⟩

/-- The call that is made at a moment. -/
def call? (moment : Moment) : Option Call :=
  match moment.activity with
  | .running machine (token :: code) last => Call.ofToken? machine token code last
  | _ => none

/-- The audiences that references have entered, the innermost first. -/
def entered (moment : Moment) : List String := moment.calls.map (·.name)

end Moment

/-! ## Tokens -/

/-- After a reference the trail is what it was before. -/
@[simp] lemma Trail.leave_enter (trail : Trail) (name : String) :
    (trail.enter name).leave = trail := rfl

namespace Call

/-- A call goes on with the code behind its operator. -/
lemma code_of_ofToken? {machine : Machine} {token : Located Token} {code : List (Located Token)}
    {last : Nat} {call : Call} (h : ofToken? machine token code last = some call) :
    call.code = code ∧ call.last = last := by
  unfold ofToken? at h
  split at h
  · obtain ⟨name, -, rfl⟩ := Option.map_eq_some_iff.1 h
    exact ⟨rfl, rfl⟩
  · cases h

/-- The machine takes the outcome of the audience that a token refers to. -/
lemma next_of_ofToken? {around : Surroundings} {machine : Machine} {token : Located Token}
    {code : List (Located Token)} {last : Nat} {call : Call}
    (h : ofToken? machine token code last = some call) :
    machine.next around token =
      (around.refer call.name call.column).map (call.after around.traced) := by
  unfold ofToken? at h
  split at h
  · next op right left stack hvalue hstack =>
    obtain ⟨name, hname, rfl⟩ := Option.map_eq_some_iff.1 h
    simp only [Machine.next, hvalue, hstack, Surroundings.operate, Surroundings.combine?_eq, hname]
    cases around.refer name token.column <;> rfl
  · cases h

/-- A token that refers to no audience does the same in all surroundings of a snapshot. -/
lemma next_of_ofToken?_eq_none {around : Surroundings} {machine : Machine}
    {token : Located Token} {code : List (Located Token)} {last : Nat}
    (h : ofToken? machine token code last = none) :
    machine.next around token = machine.next (.alone around.snapshot around.traced) token := by
  obtain ⟨value, column⟩ := token
  obtain ⟨stack, trace⟩ := machine
  cases value with
  | operator op =>
    match stack with
    | [] | [_] => rfl
    | right :: left :: stack =>
      have hnone := Option.map_eq_none_iff.1 h
      simp only [Machine.next, Surroundings.operate, Surroundings.combine?_eq, hnone,
        Surroundings.alone]
      rfl
  | _ => rfl

end Call

namespace Moment

variable {engine : Engine} {snapshot : Snapshot} {traced : Bool}

/-! ## The outcome -/

/-- A call that can be made is made next. -/
lemma step_of_call? {moment : Moment} {call : Call} (h : moment.call? = some call) :
    moment.step engine snapshot traced = some (moment.follow engine snapshot call) := by
  obtain ⟨trail, calls, activity⟩ := moment
  match activity with
  | .running machine (token :: code) last =>
    have hcall : Call.ofToken? machine token code last = some call := h
    simp only [step, hcall]

/-- A call comes to the outcome of the reference, and leaves trail and calls as they were, if all
references inside it do so.

**Proof sketch.** Induction on the code. A token without a reference makes one step. At a reference
the evaluation goes on when the reference has returned (`h`), with the same trail and calls. -/
lemma running_reaches {trail : Trail}
    (h : ∀ calls activity call, Reaches engine snapshot traced
      (follow engine snapshot ⟨trail, calls, activity⟩ call)
      ⟨trail, calls, call.resume traced (engine.refer snapshot traced trail call.name call.column)⟩)
    (calls : List Call) (machine : Machine) (code : List (Located Token)) (last : Nat) :
    Reaches engine snapshot traced ⟨trail, calls, .running machine code last⟩
      ⟨trail, calls, .returned (code.foldlM (Machine.next (engine.around snapshot traced trail))
        machine >>= fun machine => machine.finish last)⟩ := by
  induction code generalizing machine with
  | nil => exact .single rfl
  | cons token code ih =>
    rw [List.foldlM_cons, bind_assoc]
    cases hcall : Call.ofToken? machine token code last with
    | some call =>
      -- the call returns by `h`, and the code behind it goes on from there
      refine .head (step_of_call? hcall) ((h calls _ call).trans ?_)
      rw [Call.next_of_ofToken? hcall]
      obtain ⟨hcode, hlast⟩ := Call.code_of_ofToken? hcall
      change Reaches engine snapshot traced
        ⟨trail, calls,
          call.resume traced (engine.refer snapshot traced trail call.name call.column)⟩
        ⟨trail, calls, .returned ((engine.refer snapshot traced trail call.name call.column).map
          (call.after traced) >>= _)⟩
      cases engine.refer snapshot traced trail call.name call.column with
      | error error => exact .refl
      | ok result =>
        rw [Call.resume, hcode, hlast]
        exact ih _
    | none =>
      -- without a call the token does not look at the surroundings
      have hnext : machine.next (engine.around snapshot traced trail) token =
          machine.next (.alone snapshot traced) token := Call.next_of_ofToken?_eq_none hcall
      rw [hnext]
      cases hmachine : machine.next (.alone snapshot traced) token with
      | error error =>
        refine .single ?_
        simp only [step, hcall, hmachine]
        rfl
      | ok machine =>
        refine .head ?_ (ih machine)
        simp only [step, hcall, hmachine]

/-- A rule comes to its outcome on the trail, if all references on the trail return. -/
lemma ofRule_reaches_of_follow {trail : Trail}
    (h : ∀ calls activity call, Reaches engine snapshot traced
      (follow engine snapshot ⟨trail, calls, activity⟩ call)
      ⟨trail, calls, call.resume traced (engine.refer snapshot traced trail call.name call.column)⟩)
    (calls : List Call) (rule : String) :
    Reaches engine snapshot traced ⟨trail, calls, .ofRule engine snapshot rule⟩
      ⟨trail, calls, .returned (engine.outcomeOn snapshot traced trail rule)⟩ := by
  unfold Activity.ofRule Engine.outcomeOn
  cases Program.ofRule snapshot engine.policy rule with
  | error error => exact .refl
  | ok program => exact running_reaches h calls _ _ _

/-- **A reference returns.** When a call is made, the evaluation comes to the outcome of the
reference, with the trail and the calls that it had before, whether the reference is refused,
succeeds or fails.

**Proof sketch.** Induction along the references that are open. A reference that is refused changes
nothing. Inside one that is followed the rule of the audience comes to its outcome, since all
references inside it return; and then the trail is cut back by the one name that was added. -/
theorem follow_reaches (engine : Engine) (snapshot : Snapshot) (traced : Bool) (trail : Trail)
    (calls : List Call) (activity : Activity) (call : Call) :
    Reaches engine snapshot traced (follow engine snapshot ⟨trail, calls, activity⟩ call)
      ⟨trail, calls,
        call.resume traced (engine.refer snapshot traced trail call.name call.column)⟩ := by
  -- the induction is on the reference, so its name and column have to be variables
  generalize hname : call.name = name
  generalize hcolumn : call.column = column
  fun_induction Engine.refer engine snapshot traced trail name column
    generalizing calls activity call with
  | case1 trail name column hcyclic =>
    subst hname hcolumn
    rw [follow, if_pos hcyclic]
    exact .refl
  | case2 trail name column hcyclic hdepth =>
    subst hname hcolumn
    rw [follow, if_neg hcyclic, if_pos hdepth]
    exact .refl
  | case3 trail name column hcyclic hdepth hrule =>
    subst hname hcolumn
    rw [follow, if_neg hcyclic, if_neg hdepth, hrule]
    exact .refl
  | case4 trail name column hcyclic hdepth rule hrule ih =>
    subst hname hcolumn
    rw [follow, if_neg hcyclic, if_neg hdepth, hrule]
    have hinside : Reaches engine snapshot traced
        ⟨trail.enter call.name, call :: calls, .ofRule engine snapshot rule⟩
        ⟨trail.enter call.name, call :: calls,
          .returned (engine.outcomeOn snapshot traced (trail.enter call.name) rule)⟩ :=
      ofRule_reaches_of_follow
        (fun calls activity inner => ih inner.name inner.column calls activity inner rfl rfl) _ rule
    exact hinside.tail rfl

/-- A rule comes to its outcome, with the trail and the calls that it began with. -/
theorem ofRule_reaches (engine : Engine) (snapshot : Snapshot) (traced : Bool) (trail : Trail)
    (calls : List Call) (rule : String) :
    Reaches engine snapshot traced ⟨trail, calls, .ofRule engine snapshot rule⟩
      ⟨trail, calls, .returned (engine.outcomeOn snapshot traced trail rule)⟩ :=
  ofRule_reaches_of_follow (follow_reaches engine snapshot traced trail) calls rule

/-! ## Steps -/

/-- What a step can be: the innermost call returns; an outcome is found, be it at the end of the
code, as an error or because a reference is refused; a token that refers to no audience is done; or
a reference is entered, to an audience that is registered and not on the trail, where the limit
allows it. -/
inductive Steps (engine : Engine) (snapshot : Snapshot) (traced : Bool) : Moment → Moment → Prop
  | returns {trail : Trail} {call : Call} {calls : List Call} {outcome : Outcome} :
    Steps engine snapshot traced ⟨trail, call :: calls, .returned outcome⟩
      ⟨trail.leave, calls, call.resume traced outcome⟩
  | ends {trail : Trail} {calls : List Call} {machine : Machine} {code : List (Located Token)}
      {last : Nat} {outcome : Outcome} :
    Steps engine snapshot traced ⟨trail, calls, .running machine code last⟩
      ⟨trail, calls, .returned outcome⟩
  | token {trail : Trail} {calls : List Call} {machine next : Machine} {token : Located Token}
      {code : List (Located Token)} {last : Nat} :
    machine.next (.alone snapshot traced) token = .ok next →
    Steps engine snapshot traced ⟨trail, calls, .running machine (token :: code) last⟩
      ⟨trail, calls, .running next code last⟩
  | enters {trail : Trail} {calls : List Call} {machine : Machine} {token : Located Token}
      {code : List (Located Token)} {last : Nat} {call : Call} {rule : String} :
    Call.ofToken? machine token code last = some call → call.name ∉ trail.chain →
    trail.depth < engine.depthLimit → snapshot.rule? call.name = some rule →
    Steps engine snapshot traced ⟨trail, calls, .running machine (token :: code) last⟩
      ⟨trail.enter call.name, call :: calls, .ofRule engine snapshot rule⟩

/-- The next moment comes by a step.

**Proof sketch.** By cases on the activity, along the definition of a step: a rule that has returned
goes back to its caller, code that is at its end ends, a reference is refused or enters a rule, and
any other token is taken by the machine. -/
lemma steps_of_step {moment next : Moment} (h : moment.step engine snapshot traced = some next) :
    Steps engine snapshot traced moment next := by
  obtain ⟨trail, calls, activity⟩ := moment
  cases activity with
  | returned outcome =>
    cases calls with
    | nil => cases h
    | cons call calls =>
      obtain rfl := Option.some.inj h
      exact .returns
  | running machine code last =>
    cases code with
    | nil =>
      obtain rfl := Option.some.inj h
      exact .ends
    | cons token code =>
      simp only [step] at h
      split at h
      · next call hcall =>
        obtain rfl := Option.some.inj h
        simp only [follow]
        split_ifs with hcyclic hdepth
        · exact .ends
        · exact .ends
        · split
          · exact .ends
          · next rule hrule => exact .enters hcall hcyclic (Nat.not_le.1 hdepth) hrule
      · split at h
        · obtain rfl := Option.some.inj h
          exact .ends
        · next machine hnext =>
          obtain rfl := Option.some.inj h
          exact .token hnext

/-! ## The trail -/

/-- What a step does to the trail and to the calls: nothing; or it enters an audience that is
registered and not on the trail, where the limit allows it; or it leaves the audience that was
entered last. -/
lemma step_cases {moment next : Moment} (h : moment.step engine snapshot traced = some next) :
    (next.trail = moment.trail ∧ next.calls = moment.calls) ∨
      (∃ call, call.name ∉ moment.trail.chain ∧ moment.trail.depth < engine.depthLimit ∧
        (snapshot.rule? call.name).isSome = true ∧
        next.trail = moment.trail.enter call.name ∧ next.calls = call :: moment.calls) ∨
      ∃ call, moment.calls = call :: next.calls ∧ next.trail = moment.trail.leave := by
  cases steps_of_step h with
  | @returns trail call => exact .inr (.inr ⟨call, rfl, rfl⟩)
  | ends | token => exact .inl ⟨rfl, rfl⟩
  | @enters trail calls machine token code last call rule _ hcyclic hdepth hrule =>
    exact .inr (.inl ⟨call, hcyclic, hdepth, Option.isSome_of_mem hrule, rfl, rfl⟩)

/-- What holds of the trail at a moment of an evaluation that began with another trail: it is the
first one with the audiences entered since. These are registered, no audience is on it twice, and
its depth is within the limit. -/
structure Sound (engine : Engine) (snapshot : Snapshot) (root : Trail) (moment : Moment) :
    Prop where
  trail : moment.trail = moment.entered.foldr (fun name trail => trail.enter name) root
  nodup : moment.trail.chain.Nodup
  registered : ∀ name ∈ moment.entered, (snapshot.rule? name).isSome = true
  depth_le : moment.trail.depth ≤ engine.depthLimit

/-- Each step keeps the trail sound.

**Proof sketch.** By cases on the step, by `Targeting.Moment.step_cases`. If the trail stays,
nothing changes. A reference that enters adds an audience that is new and registered, below the
limit. A return takes the last one off, and the trail is what it was before. -/
theorem Sound.step {root : Trail} {moment next : Moment} (h : moment.Sound engine snapshot root)
    (hstep : moment.step engine snapshot traced = some next) :
    next.Sound engine snapshot root := by
  obtain ⟨htrail, hnodup, hregistered, hdepth⟩ := h
  -- the trail stays, or an audience is entered, or the last one is left
  rcases step_cases hstep with ⟨hsame, hcalls⟩ | ⟨call, hfresh, hlimit, hrule, henter, hcalls⟩ |
    ⟨call, hcalls, hleave⟩
  · have hentered : next.entered = moment.entered := by rw [entered, hcalls, entered]
    exact ⟨by rw [hsame, hentered, htrail], by rw [hsame]; exact hnodup,
      by rw [hentered]; exact hregistered, by rw [hsame]; exact hdepth⟩
  · have hentered : next.entered = call.name :: moment.entered := by
      rw [entered, hcalls, List.map_cons, entered]
    refine ⟨?_, ?_, ?_, ?_⟩
    · rw [henter, hentered, List.foldr_cons, ← htrail]
    · rw [henter]
      exact List.nodup_cons.2 ⟨hfresh, hnodup⟩
    · rw [hentered]
      exact List.forall_mem_cons.2 ⟨hrule, hregistered⟩
    · rw [henter]
      exact hlimit
  · have hentered : moment.entered = call.name :: next.entered := by
      rw [entered, hcalls, List.map_cons, entered]
    rw [hentered, List.foldr_cons] at htrail
    have hback : next.trail = next.entered.foldr (fun name trail => trail.enter name) root := by
      rw [hleave, htrail, Trail.leave_enter]
    have hchain : moment.trail = next.trail.enter call.name := by rw [htrail, hback]
    rw [hchain] at hnodup hdepth
    rw [hentered] at hregistered
    exact ⟨hback, (List.nodup_cons.1 hnodup).2, (List.forall_mem_cons.1 hregistered).2,
      (Nat.le_succ _).trans hdepth⟩

/-- The trail is sound at every moment that is reached from one at which it is. -/
lemma Sound.reaches {root : Trail} {moment later : Moment} (h : moment.Sound engine snapshot root)
    (hreach : Reaches engine snapshot traced moment later) : later.Sound engine snapshot root := by
  induction hreach with
  | refl => exact h
  | tail _ hstep ih => exact ih.step hstep

/-- The trail is sound when an evaluation begins. -/
lemma start_sound (engine : Engine) (snapshot : Snapshot) (audience rule : String) :
    (start engine snapshot audience rule).Sound engine snapshot (.root audience) := by
  refine ⟨rfl, ?_, by simp [start, entered], Nat.zero_le _⟩
  change (Trail.root audience).chain.Nodup
  unfold Trail.root
  split_ifs <;> simp

/-- A trail that others have lengthened has their names in front, and is as much deeper. -/
lemma foldr_enter (names : List String) (root : Trail) :
    names.foldr (fun name trail => trail.enter name) root =
      ⟨names ++ root.chain, root.depth + names.length⟩ := by
  induction names with
  | nil => rfl
  | cons name names ih =>
    rw [List.foldr_cons, ih, Trail.enter, List.length_cons]
    rfl

/-- The names that have been entered are no more than there are registered audiences. -/
lemma Sound.length_entered_le {root : Trail} {moment : Moment}
    (h : moment.Sound engine snapshot root) : moment.entered.length ≤ snapshot.rules.size := by
  have hchain := h.nodup
  rw [h.trail, foldr_enter] at hchain
  have hsub : moment.entered ⊆ snapshot.rules.keys :=
    fun name hname => Dict.mem_keys_iff.2 (h.registered name hname)
  have hle := ((List.nodup_append.1 hchain).1.subperm hsub).length_le
  rwa [Dict.keys, List.length_map] at hle

/-! ## Whole evaluations -/

/-- The moment after some steps. -/
def after (engine : Engine) (snapshot : Snapshot) (traced : Bool) (moment : Moment) :
    Nat → Option Moment
  | 0 => some moment
  | n + 1 => (moment.step engine snapshot traced).bind fun next =>
    after engine snapshot traced next n

/-- What comes after some steps is reached. -/
lemma reaches_of_after {n : Nat} {moment later : Moment}
    (h : moment.after engine snapshot traced n = some later) :
    Reaches engine snapshot traced moment later := by
  induction n generalizing moment with
  | zero =>
    obtain rfl := Option.some.inj h
    exact .refl
  | succ n ih =>
    obtain ⟨next, hnext, h⟩ := Option.bind_eq_some_iff.1 h
    exact .head hnext (ih h)

/-- If an evaluation has come to an end before a number of steps, all its moments come after fewer
steps. -/
lemma exists_after_of_reaches {n : Nat} {moment later : Moment}
    (hend : moment.after engine snapshot traced n = none)
    (h : Reaches engine snapshot traced moment later) :
    ∃ k < n, moment.after engine snapshot traced k = some later := by
  induction n generalizing moment with
  | zero => cases hend
  | succ n ih =>
    rcases h.cases_head with rfl | ⟨next, hnext, hreach⟩
    · exact ⟨0, n.succ_pos, rfl⟩
    · rw [after, hnext] at hend
      obtain ⟨k, hk, hlater⟩ := ih hend hreach
      refine ⟨k + 1, Nat.succ_lt_succ hk, ?_⟩
      rw [after, hnext]
      exact hlater

/-- From each moment of an evaluation that comes to an end this end is reached, since a moment has
only one next moment. -/
lemma reaches_last {moment later last : Moment}
    (hlast : Reaches engine snapshot traced moment last)
    (hend : last.step engine snapshot traced = none)
    (h : Reaches engine snapshot traced moment later) :
    Reaches engine snapshot traced later last := by
  have hunique : Relator.RightUnique fun moment next : Moment =>
      moment.step engine snapshot traced = some next :=
    fun _ _ _ hnext hother => Option.some.inj (hnext.symm.trans hother)
  rcases ReflTransGen.total_of_right_unique hunique h hlast with hlater | hback
  · exact hlater
  · rcases hback.cases_head with rfl | ⟨next, hnext, -⟩
    · exact .refl
    · rw [hend] at hnext
      cases hnext

/-- A call that is made at a moment returns, and the evaluation goes on with its outcome, with the
trail and the calls of that moment. -/
lemma reaches_resume {moment : Moment} {call : Call} (h : moment.call? = some call) :
    Reaches engine snapshot traced moment
      ⟨moment.trail, moment.calls,
        call.resume traced (engine.refer snapshot traced moment.trail call.name call.column)⟩ :=
  .head (step_of_call? h) (follow_reaches engine snapshot traced moment.trail moment.calls _ call)

/-- **The trail of an evaluation.** The evaluation of a rule as that of an audience comes to an end,
whatever the limit is, with its outcome. At every moment until then the trail consists of the
audiences that references have entered and the audience that is evaluated for itself. None is on it
twice, those entered are registered, and its depth is their number, which neither exceeds the limit
nor the number of registered audiences. Each reference returns, refused or followed, with a result
or an error, and the trail is then what it was before.

**Proof sketch.** What is true of the trail at every moment is `Targeting.Moment.Sound`, from the
start by its run. The evaluation reaches its last moment by `Targeting.Moment.ofRule_reaches`, and a
step has one outcome only, so each moment lies on the way there; in the same way each reference
returns. -/
theorem trail_of_reaches (engine : Engine) (snapshot : Snapshot) (traced : Bool)
    (audience rule : String) :
    step engine snapshot traced ⟨.root audience, [],
        .returned (engine.outcomeOn snapshot traced (.root audience) rule)⟩ = none ∧
      ∀ moment, Reaches engine snapshot traced (start engine snapshot audience rule) moment →
        Reaches engine snapshot traced moment ⟨.root audience, [],
          .returned (engine.outcomeOn snapshot traced (.root audience) rule)⟩ ∧
        moment.trail.chain = moment.entered ++ (Trail.root audience).chain ∧
        moment.trail.chain.Nodup ∧
        (∀ name ∈ moment.entered, (snapshot.rule? name).isSome = true) ∧
        moment.trail.depth = moment.entered.length ∧
        moment.trail.depth ≤ min engine.depthLimit snapshot.rules.size ∧
        ∀ call, moment.call? = some call →
          ∃ later, Reaches engine snapshot traced moment later ∧
            later.trail = moment.trail ∧ later.calls = moment.calls ∧
            later.activity = call.resume traced
              (engine.refer snapshot traced moment.trail call.name call.column) := by
  refine ⟨rfl, fun moment hmoment => ?_⟩
  have hsound := (start_sound engine snapshot audience rule).reaches hmoment
  have htrail := hsound.trail
  rw [foldr_enter] at htrail
  have hroot : (Trail.root audience).depth = 0 := rfl
  have hdepth : moment.trail.depth = moment.entered.length := by rw [htrail, hroot, Nat.zero_add]
  refine ⟨reaches_last (ofRule_reaches engine snapshot traced _ _ _) rfl hmoment,
    by rw [htrail], hsound.nodup, hsound.registered, hdepth,
    le_min hsound.depth_le (hdepth ▸ hsound.length_entered_le), fun call hcall => ?_⟩
  exact ⟨_, reaches_resume hcall, rfl, rfl, rfl⟩

/-- Two references are open after six steps, one inside the other, under the largest limit of 64
bits; both return.

**Proof sketch.** The moment after six steps is computed, with its audiences and its trail. That its
depth is in bounds and that the evaluation goes on to its end is the theorem. -/
theorem trail_of_reaches_nested :
    let snapshot : Snapshot :=
      { rules := .ofList [("m", "Audience == 'n'"), ("n", "'a' == 'a'")] }
    let engine : Engine := { depthLimit := 18446744073709551615 }
    ∃ moment, Reaches engine snapshot false (start engine snapshot "k" "Audience == 'm'") moment ∧
      moment.entered = ["n", "m"] ∧ moment.trail = ⟨["n", "m", "k"], 2⟩ ∧
      moment.trail.depth ≤ min engine.depthLimit snapshot.rules.size ∧
      Reaches engine snapshot false moment ⟨.root "k", [],
        .returned (engine.outcomeOn snapshot false (.root "k") "Audience == 'm'")⟩ := by
  intro snapshot engine
  have hnames : ((start engine snapshot "k" "Audience == 'm'").after engine snapshot false 6).map
      (fun moment => (moment.entered, moment.trail)) =
        some (["n", "m"], ⟨["n", "m", "k"], 2⟩) := by
    unfold snapshot engine
    decide +kernel
  obtain ⟨moment, hmoment, hentered⟩ := Option.map_eq_some_iff.1 hnames
  obtain ⟨hentered, htrail⟩ := Prod.mk.inj hentered
  have hreach := reaches_of_after hmoment
  obtain ⟨-, hall⟩ := trail_of_reaches engine snapshot false "k" "Audience == 'm'"
  obtain ⟨hlast, -, -, -, -, hdepth, -⟩ := hall moment hreach
  exact ⟨moment, hreach, hentered, htrail, hdepth, hlast⟩

end Moment

end Targeting
