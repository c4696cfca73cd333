import Targeting.Proofs.Evaluation.FieldPolicy
import Targeting.Proofs.Evaluation.Moment
import Targeting.Proofs.Rule.Conservation

/-!
# What an evaluation depends on

A program lists the names of its variables. The evaluation of a rule depends on a snapshot by the
values of these, in the rule and in the rules that are entered on the way, and by the rules of the
audiences that it looks for. Two evaluations in snapshots that agree on this go through the same
moments: each step does the same in both, and leads to code on whose variables they agree again.

## Main definitions

* `Targeting.Snapshot.valueOf?` — the value of the variable that a name stands for.
* `Targeting.Engine.AgreeOn`, `Targeting.Engine.AgreeAt` — snapshots that agree on a rule, or on an
  audience.
* `Targeting.Engine.LooksFor` — the audiences whose rules an evaluation looks for.
* `Targeting.Moment.SameOperands` — a moment whose variables have the same operands in two
  snapshots.

## Main results

* `Targeting.Program.ofRule_eq_of_ofRule` — a rule has the same program wherever it has one.
* `Targeting.Moment.step_congr` — a step does the same in snapshots that agree.
* `Targeting.Engine.reaches_congr` — an evaluation goes through the same moments.
* `Targeting.Engine.outcome_congr` — the outcome depends on nothing else.
-/

set_option autoImplicit false

namespace Targeting

/-! ## Names of variables -/

/-- The variable that a name in a rule stands for. -/
def Variable.ofName? (name : String) : Option Variable :=
  match Attribute.ofName? name with
  | some a => some (.named a)
  | none => (FieldPath.ofWord? name).map .record

/-- The value of the variable that a name stands for. A missing field is the empty text; the
audience attribute and the tables have no value. -/
def Snapshot.valueOf? (snapshot : Snapshot) (name : String) : Option Value :=
  (Variable.ofName? name).bind fun v => (Operand.ofVariable snapshot v).value?

/-- The operand of a variable depends on its value only. -/
lemma Operand.ofVariable_congr {snapshot snapshot' : Snapshot} {v : Variable}
    (h : (ofVariable snapshot v).value? = (ofVariable snapshot' v).value?) :
    ofVariable snapshot v = ofVariable snapshot' v := by
  cases v with
  | named a => cases a <;> first | rfl | exact congrArg (Operand.variable _) (Option.some.inj h)
  | record path => exact congrArg (Operand.variable _) (Option.some.inj h)

/-- A word that is a variable is the name that stands for the variable. -/
lemma Token.name_of_ofWord {snapshot : Snapshot} {policy : FieldPolicy} {word : String}
    {v : Variable} (h : ofWord snapshot policy word = .ok (.variable v)) :
    v.name = word ∧ Variable.ofName? word = some v := by
  unfold ofWord at h
  split at h
  · cases h
  · next a _ hname =>
    cases h
    have hword : a.name = word := by simpa using List.find?_some hname
    exact ⟨hword, by simp only [Variable.ofName?, hname]⟩
  · next path _ hname hpath =>
    split_ifs at h
    cases h
    exact ⟨FieldPath.text_of_ofWord? hpath, by simp only [Variable.ofName?, hname, hpath]; rfl⟩
  · cases h

/-- A variable among tokens has been read from the word that is its name. -/
lemma Token.ofWord_name_of_mem {snapshot : Snapshot} {policy : FieldPolicy}
    {lexemes : List (Located Lexeme)} {tokens : List (Located Token)}
    (h : ofLexemes snapshot policy lexemes = .ok tokens) {v : Variable} {column : Nat}
    (hmem : ⟨.variable v, column⟩ ∈ tokens) :
    ofWord snapshot policy v.name = .ok (.variable v) := by
  obtain ⟨before, behind, rfl⟩ := List.append_of_mem hmem
  obtain ⟨_, _, -, -, hback⟩ := exists_append_of_forall₂ (ofLexemes_eq_ok_iff.1 h)
  obtain ⟨⟨value, place⟩, _, ⟨hlexeme, -⟩, -, -⟩ := List.forall₂_cons_right_iff.1 hback
  cases value with
  | word word =>
    have hname := (name_of_ofWord hlexeme).1
    rw [hname]
    exact hlexeme
  | quoted | operator | opening | closing => cases hlexeme

/-! ## Programs -/

namespace Program

variable {snapshot snapshot' : Snapshot} {policy : FieldPolicy} {rule : String}
  {program program' : Program}

/-- A rule has the same program in two snapshots, if it has one in both: its fields are admitted in
both. -/
theorem ofRule_eq_of_ofRule (h : ofRule snapshot policy rule = .ok program)
    (h' : ofRule snapshot' policy rule = .ok program') : program' = program := by
  have hadmits : ∀ path ∈ Snapshot.mentioned rule,
      AdmitsAlike (fun _ => False) snapshot snapshot' policy policy path := by
    intro path hpath
    exact .inl ((admits_of_ofRule h' hpath).trans (admits_of_ofRule h hpath).symm)
  have hfollows := ofRule_follows hadmits
  exact Except.ok.inj ((h'.symm.trans hfollows.eq).trans h)

/-- A variable in the code of a rule is listed by its name, which stands for it. -/
lemma name_mem_names (h : ofRule snapshot policy rule = .ok program) {column : Nat} {v : Variable}
    (hmem : ⟨.variable v, column⟩ ∈ program.code) :
    v.name ∈ program.names ∧ Variable.ofName? v.name = some v := by
  obtain ⟨tokens, htokens, hprogram⟩ := bind_eq_ok_iff.1 h
  obtain ⟨-, -, hprogram⟩ := bind_eq_ok_iff.1 hprogram
  obtain rfl := Except.ok.inj hprogram
  have hmem := mem_of_mem_reversePolish hmem
  constructor
  · apply NameSet.mem_ofList.2
    exact List.mem_filterMap.2 ⟨_, hmem, rfl⟩
  · obtain ⟨_, -, hlexemes⟩ := bind_eq_ok_iff.1 htokens
    exact (Token.name_of_ofWord (Token.ofWord_name_of_mem hlexemes hmem)).2

end Program

/-! ## Agreement -/

/-- Whether a variable that a token is has the same operand in two snapshots. -/
def Token.SameOperand (snapshot snapshot' : Snapshot) (token : Token) : Prop :=
  ∀ v, token = .variable v → Operand.ofVariable snapshot v = Operand.ofVariable snapshot' v

/-- Whether a rule has programs in two snapshots, and the variables that it names have the same
values in both. -/
def Engine.AgreeOn (engine : Engine) (snapshot snapshot' : Snapshot) (rule : String) : Prop :=
  ∃ program program', Program.ofRule snapshot engine.policy rule = .ok program ∧
    Program.ofRule snapshot' engine.policy rule = .ok program' ∧
    ∀ name ∈ program.names, snapshot.valueOf? name = snapshot'.valueOf? name

/-- Whether two snapshots agree on an audience: both have the same rule of it, on which they agree,
or none. -/
def Engine.AgreeAt (engine : Engine) (snapshot snapshot' : Snapshot) (name : String) : Prop :=
  snapshot.rule? name = snapshot'.rule? name ∧
    ∀ rule, snapshot.rule? name = some rule → engine.AgreeOn snapshot snapshot' rule

instance (engine : Engine) (snapshot snapshot' : Snapshot) (rule : String) :
    Decidable (engine.AgreeOn snapshot snapshot' rule) :=
  match h : Program.ofRule snapshot engine.policy rule,
      h' : Program.ofRule snapshot' engine.policy rule with
  | .ok program, .ok program' =>
    decidable_of_iff
      (∀ name ∈ program.names.toList, snapshot.valueOf? name = snapshot'.valueOf? name)
      (by simp [Engine.AgreeOn, h, h'])
  | .error _, _ => isFalse (by simp [Engine.AgreeOn, h])
  | .ok _, .error _ => isFalse (by simp [Engine.AgreeOn, h'])

instance (engine : Engine) (snapshot snapshot' : Snapshot) (name : String) :
    Decidable (engine.AgreeAt snapshot snapshot' name) :=
  inferInstanceAs (Decidable (snapshot.rule? name = snapshot'.rule? name ∧
    ∀ rule ∈ snapshot.rule? name, engine.AgreeOn snapshot snapshot' rule))

/-- Where snapshots agree on a rule, its program is the same in both, and so are the operands of the
variables in it. -/
lemma Engine.AgreeOn.exists_program {engine : Engine} {snapshot snapshot' : Snapshot}
    {rule : String} (h : engine.AgreeOn snapshot snapshot' rule) :
    ∃ program, Program.ofRule snapshot engine.policy rule = .ok program ∧
      Program.ofRule snapshot' engine.policy rule = .ok program ∧
      ∀ token ∈ program.code, token.value.SameOperand snapshot snapshot' := by
  obtain ⟨program, program', hprogram, hprogram', hvalues⟩ := h
  obtain rfl := Program.ofRule_eq_of_ofRule hprogram hprogram'
  refine ⟨program', hprogram, hprogram', ?_⟩
  rintro ⟨_, column⟩ htoken v rfl
  obtain ⟨hname, hvariable⟩ := Program.name_mem_names hprogram htoken
  have hvalue := hvalues v.name hname
  simp only [Snapshot.valueOf?, hvariable] at hvalue
  exact Operand.ofVariable_congr hvalue

/-- A token that refers to no audience does the same in two snapshots that give it the same
operand. -/
lemma Machine.next_alone_congr {snapshot snapshot' : Snapshot} {token : Located Token}
    (h : token.value.SameOperand snapshot snapshot') (machine : Machine) (traced : Bool) :
    machine.next (.alone snapshot traced) token = machine.next (.alone snapshot' traced) token := by
  obtain ⟨value, column⟩ := token
  cases value with
  | «variable» v => exact congrArg (fun operand => Except.ok (machine.push operand)) (h v rfl)
  | text | truth | operator | opening | closing => rfl

/-! ## Moments -/

/-- The code that runs. -/
def Activity.code : Activity → List (Located Token)
  | running _ code _ => code
  | returned _ => []

/-- A rule on which snapshots agree begins in the same way in both, and with variables that have the
same operands. -/
lemma Activity.ofRule_congr {engine : Engine} {snapshot snapshot' : Snapshot} {rule : String}
    (h : engine.AgreeOn snapshot snapshot' rule) :
    ofRule engine snapshot rule = ofRule engine snapshot' rule ∧
      ∀ token ∈ (ofRule engine snapshot rule).code, token.value.SameOperand snapshot snapshot' := by
  obtain ⟨program, hprogram, hprogram', hcode⟩ := h.exists_program
  unfold ofRule
  rw [hprogram, hprogram']
  exact ⟨rfl, hcode⟩

/-- What runs after a call is the code behind it, if anything. -/
lemma Call.code_resume_subset (call : Call) (traced : Bool) (outcome : Outcome) :
    (call.resume traced outcome).code ⊆ call.code := by
  cases outcome with
  | error error => exact List.nil_subset _
  | ok result => exact List.Subset.refl _

namespace Moment

variable {engine : Engine} {snapshot snapshot' : Snapshot} {traced : Bool}

/-- Whether the variables in all code have the same operands in two snapshots: in what runs, and in
what waits behind the calls. -/
structure SameOperands (snapshot snapshot' : Snapshot) (moment : Moment) : Prop where
  activity : ∀ token ∈ moment.activity.code, token.value.SameOperand snapshot snapshot'
  calls : ∀ call ∈ moment.calls, ∀ token ∈ call.code, token.value.SameOperand snapshot snapshot'

/-- Whether a moment looks for the rule of an audience: it refers to the audience, and neither a
cycle nor the limit stops the reference. -/
def LooksFor (engine : Engine) (moment : Moment) (name : String) : Prop :=
  ∃ call, moment.call? = some call ∧ call.name = name ∧ name ∉ moment.trail.chain ∧
    moment.trail.depth < engine.depthLimit

/-- A step does the same in two snapshots, if the variables in the code have the same operands in
both and the snapshots agree on the audience that it looks for.

**Proof sketch.** By cases on what is going on. The next token does the same on operands that are
the same. A reference is refused alike on the same trail, and the rule that it enters is looked for,
so both snapshots agree on it. -/
theorem step_congr {moment : Moment} (h : moment.SameOperands snapshot snapshot')
    (hfound : ∀ name, moment.LooksFor engine name → engine.AgreeAt snapshot snapshot' name) :
    moment.step engine snapshot traced = moment.step engine snapshot' traced := by
  obtain ⟨trail, calls, activity⟩ := moment
  match activity with
  | .returned outcome | .running machine [] last => rfl
  | .running machine (token :: code) last =>
    simp only [step]
    cases hcall : Call.ofToken? machine token code last with
    | none =>
      dsimp only
      rw [Machine.next_alone_congr (h.activity token List.mem_cons_self)]
    | some call =>
      apply congrArg some
      simp only [follow]
      split_ifs with hcyclic hdepth
      · rfl
      · rfl
      · obtain ⟨hrule, hagree⟩ := hfound call.name ⟨call, hcall, rfl, hcyclic, Nat.not_le.1 hdepth⟩
        rw [← hrule]
        cases hown : snapshot.rule? call.name with
        | none => rfl
        | some rule =>
          dsimp only
          rw [(Activity.ofRule_congr (hagree rule hown)).1]

/-- After a step the variables in the code have the same operands again. -/
lemma SameOperands.step {moment next : Moment} (h : moment.SameOperands snapshot snapshot')
    (hfound : ∀ name, moment.LooksFor engine name → engine.AgreeAt snapshot snapshot' name)
    (hstep : moment.step engine snapshot traced = some next) :
    next.SameOperands snapshot snapshot' := by
  cases steps_of_step hstep with
  | @returns trail call calls outcome =>
    obtain ⟨hcall, hcalls⟩ := List.forall_mem_cons.1 h.calls
    exact ⟨fun token htoken => hcall token (call.code_resume_subset traced outcome htoken), hcalls⟩
  | ends => exact ⟨List.forall_mem_nil _, h.calls⟩
  | token => exact ⟨(List.forall_mem_cons.1 h.activity).2, h.calls⟩
  | enters hcall hcyclic hdepth hrule =>
    obtain ⟨-, hagree⟩ := hfound _ ⟨_, hcall, rfl, hcyclic, hdepth⟩
    have hcode := (List.forall_mem_cons.1 h.activity).2
    rw [← (Call.code_of_ofToken? hcall).1] at hcode
    exact ⟨(Activity.ofRule_congr (hagree _ hrule)).2, List.forall_mem_cons.2 ⟨hcode, h.calls⟩⟩

end Moment

/-! ## Evaluations -/

namespace Engine

variable {engine : Engine} {snapshot snapshot' : Snapshot} {audience rule : String}

/-- Whether the evaluation of a rule as that of an audience looks for the rule of an audience at
some moment. -/
def LooksFor (engine : Engine) (snapshot : Snapshot) (audience rule name : String) : Prop :=
  ∃ moment, Moment.Reaches engine snapshot false (.start engine snapshot audience rule) moment ∧
    moment.LooksFor engine name

/-- All moments of an evaluation are reached in another snapshot as well, if both agree on the rule
and on the audiences that the evaluation looks for.

**Proof sketch.** Induction along the moments. The variables in the code of each moment have the
same operands in both snapshots, so the next step is the same. -/
theorem reaches_congr (hrule : engine.AgreeOn snapshot snapshot' rule)
    (hfound : ∀ name, engine.LooksFor snapshot audience rule name →
      engine.AgreeAt snapshot snapshot' name) {moment : Moment}
    (h : Moment.Reaches engine snapshot false (.start engine snapshot audience rule) moment) :
    moment.SameOperands snapshot snapshot' ∧
      Moment.Reaches engine snapshot' false (.start engine snapshot' audience rule) moment := by
  obtain ⟨hstart, hcode⟩ := Activity.ofRule_congr hrule
  induction h with
  | refl =>
    refine ⟨⟨hcode, List.forall_mem_nil _⟩, ?_⟩
    rw [Moment.start, Moment.start, hstart]
    exact .refl
  | @tail moment next hreach hstep ih =>
    obtain ⟨hsame, hreach'⟩ := ih
    have hlooked : ∀ name, moment.LooksFor engine name → engine.AgreeAt snapshot snapshot' name :=
      fun name hname => hfound name ⟨moment, hreach, hname⟩
    refine ⟨hsame.step hlooked hstep, hreach'.tail ?_⟩
    rw [← Moment.step_congr hsame hlooked]
    exact hstep

/-- The outcome of a rule as that of an audience is the same in two snapshots that agree on the rule
and on the audiences that its evaluation looks for. -/
theorem outcomeOn_root_congr (hrule : engine.AgreeOn snapshot snapshot' rule)
    (hfound : ∀ name, engine.LooksFor snapshot audience rule name →
      engine.AgreeAt snapshot snapshot' name) :
    engine.outcomeOn snapshot false (.root audience) rule =
      engine.outcomeOn snapshot' false (.root audience) rule := by
  have hlast := Moment.ofRule_reaches engine snapshot false (.root audience) [] rule
  have hlast' := Moment.ofRule_reaches engine snapshot' false (.root audience) [] rule
  obtain ⟨-, hreach⟩ := reaches_congr hrule hfound hlast
  -- both evaluations end in snapshot', and an evaluation has only one end
  rcases (Moment.reaches_last hlast' rfl hreach).cases_head with heq | ⟨next, hstep, -⟩
  · exact Activity.returned.inj (congrArg Moment.activity heq)
  · cases hstep

/-- **The names of a program are all that its outcome depends on.** Let two snapshots have the same
audience, and let a rule have programs in both, as every rule that its evaluation looks for. If they
agree on the values of the variables that these programs name, and on the rules of all audiences
that are looked for, then the rule has the same outcome in both, with the same error if it fails,
however the snapshots differ in all else. -/
theorem outcome_congr (engine : Engine) (snapshot snapshot' : Snapshot) (rule : String)
    (haudience : snapshot.audience = snapshot'.audience)
    (hrule : engine.AgreeOn snapshot snapshot' rule)
    (hfound : ∀ name, engine.LooksFor snapshot snapshot.audience rule name →
      engine.AgreeAt snapshot snapshot' name) :
    engine.outcome snapshot rule = engine.outcome snapshot' rule := by
  unfold outcome outcomeFor
  rw [← haudience, outcomeOn_root_congr hrule hfound]

/-- A computed reference to a rule about a field that one snapshot lacks and that is the empty text
in the other one; a rule that is not looked for is no expression there.

**Proof sketch.** The evaluation has ten moments in the first snapshot, and the only audience that
they look for is `m`; this is computed, and so is that the snapshots agree on it. Then the outcomes
are the same by the theorem, and the first one is computed. -/
theorem outcome_congr_missing :
    let snapshot : Snapshot :=
      { role := "m"
        rules := .ofList [("m", "Account.Industry == ''"), ("n", "'a' == 'a'")]
        data := .ofList [("Account", ∅)] }
    let snapshot' : Snapshot :=
      { role := "m", profile := "p", permission := .ofList ["q"]
        rules := .ofList [("m", "Account.Industry == ''"), ("n", "(")]
        data := .ofList [("Account", .ofList [("Industry", .text "")]), ("Lead", ∅)] }
    Engine.AgreeOn {} snapshot snapshot' "Audience == Role" ∧
      (∀ name, Engine.LooksFor {} snapshot "" "Audience == Role" name →
        name = "m" ∧ Engine.AgreeAt {} snapshot snapshot' name) ∧
      ¬ Engine.AgreeAt {} snapshot snapshot' "n" ∧
      Engine.outcome {} snapshot "Audience == Role" = .ok true ∧
      Engine.outcome {} snapshot' "Audience == Role" = .ok true := by
  intro snapshot snapshot'
  have hagree : Engine.AgreeOn {} snapshot snapshot' "Audience == Role" ∧
      Engine.AgreeAt {} snapshot snapshot' "m" ∧ ¬ Engine.AgreeAt {} snapshot snapshot' "n" := by
    unfold snapshot snapshot'
    decide +kernel
  obtain ⟨hrule, hm, hn⟩ := hagree
  have hend : ((Moment.start {} snapshot "" "Audience == Role").after {} snapshot false 10).isNone =
      true := by
    unfold snapshot
    decide +kernel
  have hcalls : ∀ k < 10, ((Moment.start {} snapshot "" "Audience == Role").after {} snapshot
      false k).all (fun moment => moment.call?.all (·.name = "m")) = true := by
    unfold snapshot
    decide +kernel
  have hfound : ∀ name, Engine.LooksFor {} snapshot "" "Audience == Role" name →
      name = "m" ∧ Engine.AgreeAt {} snapshot snapshot' name := by
    rintro name ⟨moment, hreach, call, hcall, hname, -⟩
    obtain ⟨k, hk, hmoment⟩ :=
      Moment.exists_after_of_reaches (Option.isNone_iff_eq_none.1 hend) hreach
    have hcalled := hcalls k hk
    rw [hmoment, Option.all_some, hcall, Option.all_some, decide_eq_true_eq, hname] at hcalled
    rw [hcalled]
    exact ⟨rfl, hm⟩
  have htrue : Engine.outcome {} snapshot "Audience == Role" = .ok true := by
    unfold snapshot
    decide +kernel
  refine ⟨hrule, hfound, hn, htrue, ?_⟩
  rw [← outcome_congr {} snapshot snapshot' "Audience == Role" rfl hrule
    fun name hname => (hfound name hname).2]
  exact htrue

end Engine

end Targeting
