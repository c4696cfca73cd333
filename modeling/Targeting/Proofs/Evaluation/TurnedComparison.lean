import Targeting.Proofs.Evaluation.SideBySide
import Targeting.Proofs.Evaluation.Tree
import Targeting.Proofs.Rule.Admission
import Targeting.Proofs.Rule.TurnedComparison
import Targeting.Proofs.Value.Comparison

/-!
# Evaluation of comparisons turned round

A comparison of a variable and a literal brings the variable to the front, so it does not depend on
the side on which the literal stands; equality and inequality take any two operands in any order.
Everything around such a comparison is evaluated alike, in the rule itself and in the rules that it
refers to, which may have comparisons turned round as well. Only errors tell the two apart: by their
columns, and by the order in which operands are printed.

## Main definitions

* `Targeting.Surroundings.Matches` — surroundings with matching references.

## Main results

* `Targeting.Surroundings.combine?_turned` — operators on two operands that may be exchanged.
* `Targeting.Program.outcome_matches` — programs with comparisons turned round.
* `Targeting.Engine.outcome_turned` — rules with comparisons turned round.
-/

set_option autoImplicit false

namespace Targeting

/-! ## Operators -/

/-- What a variable stands for is no literal. -/
lemma Atom.isVariable_operand {a : Atom} (h : a.isVariable = true) (snapshot : Snapshot) :
    (a.operand snapshot).isVariable = true := by
  cases a with
  | «variable» v =>
    cases v with
    | named name => cases name <;> rfl
    | record path => rfl
  | text | truth => cases h

/-- An operand that is no variable is a literal. -/
lemma Atom.exists_operand_eq_literal {a : Atom} (h : a.isVariable = false) :
    ∃ value, ∀ snapshot, a.operand snapshot = .literal value := by
  cases a with
  | «variable» v => cases h
  | text s => exact ⟨.text s, fun _ => rfl⟩
  | truth b => exact ⟨.truth b, fun _ => rfl⟩

namespace Operand

/-- Two operands are compared in one of two orders. -/
lemma orient_cases (left right : Operand) :
    orient left right = (left, right) ∨ orient left right = (right, left) := by
  unfold orient
  split_ifs <;> simp

/-- A variable is compared with a literal, whichever of them is written first. -/
lemma orient_literal {operand : Operand} (h : operand.isVariable = true) (value : Value) :
    orient operand (literal value) = (operand, literal value) ∧
      orient (literal value) operand = (operand, literal value) := by
  constructor
  · simp [orient, isVariable]
  · rw [orient, if_neg (by simp), if_pos (.inr h)]

/-- The audience attribute is compared with any operand, whichever of them is written first. -/
lemma orient_audience (operand : Operand) :
    orient audience operand = (audience, operand) ∧
      orient operand audience = (audience, operand) := by
  refine ⟨if_pos rfl, ?_⟩
  unfold orient
  split_ifs with haudience hvariable
  · rw [haudience]
  · rfl
  · exact absurd (.inl rfl) hvariable

end Operand

namespace Surroundings

/-- Equality and inequality of two operands without the audience attribute take them in any
order. -/
lemma combine?_comm (around : Surroundings) {op : Operator} (hop : op = .equal ∨ op = .notEqual)
    {left right : Operand} (hleft : left ≠ .audience) (hright : right ≠ .audience) (column : Nat) :
    around.combine? op left right column = around.combine? op right left column := by
  have hresult : op.result? left right = op.result? right left := by
    have hvalues : (left.value?.bind fun a => right.value?.bind fun b => Value.compare? op a b) =
        right.value?.bind fun a => left.value?.bind fun b => Value.compare? op a b := by
      cases left.value? with
      | none => cases right.value? <;> rfl
      | some a =>
        cases right.value? with
        | none => rfl
        | some b => exact Value.compare?_comm hop a b
    rcases hop with rfl | rfl <;> exact hvalues
  have hnone : op.reference? left right = none ∧ op.reference? right left = none :=
    ⟨if_neg fun h => hleft h.2, if_neg fun h => hright h.2⟩
  rw [combine?_eq, combine?_eq, hnone.1, hnone.2, hresult]

/-- **Operands that may be exchanged.** An operator comes to the same on them in both orders.

**Proof sketch.** An equality or inequality is symmetric, also where the audience attribute is
brought to the front. Of a variable and a literal the variable comes first in both orders. -/
theorem combine?_turned (around : Surroundings) {op : Operator} {a b : Atom}
    (h : Atom.MayTurn op a b) (snapshot : Snapshot) (column : Nat) :
    let left := a.operand snapshot
    let right := b.operand snapshot
    around.combine? op (Operand.orient left right).1 (Operand.orient left right).2 column =
      around.combine? op (Operand.orient right left).1 (Operand.orient right left).2 column := by
  intro left right
  rcases h with hop | ⟨-, hvariable⟩
  · -- the audience attribute comes first from either side
    by_cases hleft : left = .audience
    · rw [hleft, (Operand.orient_audience right).1, (Operand.orient_audience right).2]
    by_cases hright : right = .audience
    · rw [hright, (Operand.orient_audience left).1, (Operand.orient_audience left).2]
    have hcomm := around.combine?_comm hop hleft hright column
    rcases Operand.orient_cases left right with h | h <;>
      rcases Operand.orient_cases right left with h' | h' <;>
      rw [h, h'] <;> simp only [hcomm]
  · -- one of the two is a variable, and the other one is a literal
    cases ha : a.isVariable with
    | true =>
      have hb : b.isVariable = false := by simpa [ha] using hvariable
      obtain ⟨value, hvalue⟩ := Atom.exists_operand_eq_literal hb
      have hright : right = .literal value := hvalue snapshot
      obtain ⟨h, h'⟩ := Operand.orient_literal (Atom.isVariable_operand ha snapshot) value
      rw [hright, h, h']
    | false =>
      have hb : b.isVariable = true := by simpa [ha] using hvariable
      obtain ⟨value, hvalue⟩ := Atom.exists_operand_eq_literal ha
      have hleft : left = .literal value := hvalue snapshot
      obtain ⟨h, h'⟩ := Operand.orient_literal (Atom.isVariable_operand hb snapshot) value
      rw [hleft, h, h']

/-! ## Surroundings -/

/-- Surroundings in which programs come to matching outcomes: variables have the same operands, and
references match at any columns. -/
structure Matches (around around' : Surroundings) : Prop where
  operand : ∀ v, Operand.ofVariable around.snapshot v = Operand.ofVariable around'.snapshot v
  refer : ∀ name column column', Targeting.Matches RuleError.SameKind (fun a b => a.1 = b.1)
    (around.refer name column) (around'.refer name column')

variable {around around' : Surroundings}

/-- A literal or variable is the same operand in matching surroundings. -/
lemma Matches.operand_atom (h : around.Matches around') (a : Atom) :
    a.operand around.snapshot = a.operand around'.snapshot := by
  cases a with
  | «variable» v => exact h.operand v
  | text | truth => rfl

/-- An operator has matching outcomes on operands that it takes in both orders alike.

**Proof sketch.** Both operators combine the same oriented operands. If these refer to an audience
the references match, and otherwise the result is the same, or there is none on both sides. -/
lemma operate_matches (h : around.Matches around') {op : Operator}
    {left right left' right' : Operand}
    (hcombine : ∀ column,
      around.combine? op (Operand.orient left right).1 (Operand.orient left right).2 column =
        around.combine? op (Operand.orient left' right').1 (Operand.orient left' right').2 column)
    (hfault : Fault.SameKind (.unsupportedComparison op left.render right.render)
      (.unsupportedComparison op left'.render right'.render)) (column column' : Nat) :
    Targeting.Matches RuleError.SameKind (fun a b => a.1 = b.1)
      (around.operate op left right column) (around'.operate op left' right' column') := by
  unfold operate
  dsimp only
  rw [hcombine column, combine?_eq, combine?_eq]
  generalize (Operand.orient left' right').1 = subject, (Operand.orient left' right').2 = other
  cases op.reference? subject other with
  | some name =>
    refine (h.refer name column column').bind ?_
    rintro ⟨result, steps⟩ ⟨_, steps'⟩ rfl
    exact .ok rfl
  | none =>
    cases op.result? subject other with
    | none => exact .error hfault
    | some result => exact .ok rfl

end Surroundings

namespace Machine

variable {around around' : Surroundings}

/-- A machine matches another one with the same operands after one token.

**Proof sketch.** By cases on the token. A variable has the same operand in both surroundings, and
an operator takes the same operands, by `Targeting.Surroundings.operate_matches`. -/
lemma next_matches (h : around.Matches around') {m m' : Machine} (hm : m.stack = m'.stack)
    (value : Token) (column column' : Nat) :
    Matches RuleError.SameKind (fun m m' : Machine => m.stack = m'.stack)
      (m.next around ⟨value, column⟩) (m'.next around' ⟨value, column'⟩) := by
  obtain ⟨stack, trace⟩ := m
  obtain ⟨stack', trace'⟩ := m'
  obtain rfl : stack = stack' := hm
  cases value with
  | text s | truth b => exact .ok rfl
  | «variable» v =>
    refine .ok ?_
    show Operand.ofVariable _ v :: stack = Operand.ofVariable _ v :: stack
    rw [h.operand]
  | opening | closing => exact .ok rfl
  | operator op =>
    match stack with
    | [] | [_] => exact .error (.columns _ _ _)
    | right :: left :: stack =>
      refine (Surroundings.operate_matches h (fun _ => rfl) (.refl _) column column').bind ?_
      rintro ⟨result, steps⟩ ⟨_, steps'⟩ rfl
      exact .ok rfl

/-- The code of a comparison leaves its result on the stack. -/
lemma foldlM_comparison (around : Surroundings) (m : Machine) (op : Operator) (a b : Atom)
    (i j column : Nat) (code : List (Located Token)) :
    (⟨a.token, i⟩ :: ⟨b.token, j⟩ :: ⟨.operator op, column⟩ :: code).foldlM (next around) m =
      around.operate op (a.operand around.snapshot) (b.operand around.snapshot) column >>=
        fun (result, steps) =>
          code.foldlM (next around) ⟨.literal (.truth result) :: m.stack, m.trace ++ steps⟩ := by
  have hpush : ∀ (m : Machine) (a : Atom) (column : Nat) (code : List (Located Token)),
      (⟨a.token, column⟩ :: code).foldlM (next around) m =
        code.foldlM (next around) (m.push (a.operand around.snapshot)) := by
    intro m a column code
    rw [List.foldlM_cons, next_atom]
    rfl
  rw [hpush, hpush, List.foldlM_cons, push, push, next_operator, bind_assoc]
  rfl

/-- **A machine matches another one** with the same operands after code with comparisons turned
round.

**Proof sketch.** Induction on the code that varies. A token that is the same matches itself, by
`Targeting.Machine.next_matches`. A comparison and the one turned round leave the same operand,
since their operands may be exchanged. -/
lemma foldlM_turned (h : around.Matches around') {code code' : List (Located Token)}
    (hcode : Located.Varies TurnedCode code code') {m m' : Machine} (hm : m.stack = m'.stack) :
    Matches RuleError.SameKind (fun m m' : Machine => m.stack = m'.stack)
      (code.foldlM (next around) m) (code'.foldlM (next around') m') := by
  induction hcode generalizing m m' with
  | nil => exact .ok hm
  | cons value column column' _ ih =>
    rw [List.foldlM_cons, List.foldlM_cons]
    exact (next_matches h hm value column column').bind fun _ _ hnext => ih hnext
  | @part left right _ _ hpart _ ih =>
    generalize hleft : left.map (·.value) = values, hright : right.map (·.value) = values' at hpart
    obtain @⟨op, a, b, hturn⟩ := hpart
    simp only [Located.map_value_eq_cons_iff, List.map_eq_nil_iff] at hleft hright
    obtain ⟨i, _, rfl, j, _, rfl, column, _, rfl, rfl⟩ := hleft
    obtain ⟨i', _, rfl, j', _, rfl, column', _, rfl, rfl⟩ := hright
    simp only [List.cons_append, List.nil_append, foldlM_comparison]
    rw [← h.operand_atom a, ← h.operand_atom b]
    have hcombined := around.combine?_turned hturn
    refine (Surroundings.operate_matches h (hcombined _) (.turned ..) _ _).bind ?_
    rintro ⟨result, steps⟩ ⟨_, steps'⟩ rfl
    exact ih (congrArg (Operand.literal (.truth result) :: ·) hm)

/-- A machine ends like another one with the same operands. -/
lemma finish_matches {m m' : Machine} (hm : m.stack = m'.stack) (last last' : Nat) :
    Matches RuleError.SameKind (fun a b => a.1 = b.1) (m.finish last) (m'.finish last') := by
  unfold finish
  rw [← hm]
  split
  · exact .error (.columns _ _ _)
  · split
    · exact .ok rfl
    · exact .error (.columns _ _ _)
  · exact .error (.columns _ _ _)

end Machine

/-- **Programs with comparisons turned round** have matching outcomes in matching surroundings. -/
theorem Program.outcome_matches {around around' : Surroundings} (h : around.Matches around')
    {program program' : Program} (hcode : Located.Varies TurnedCode program.code program'.code) :
    Matches RuleError.SameKind (fun a b => a.1 = b.1) (program.outcome around)
      (program'.outcome around') :=
  (Machine.foldlM_turned h hcode rfl).bind fun _ _ hm => Machine.finish_matches hm _ _

/-! ## Rules -/

/-- A rule has the same program whatever rules are registered. -/
lemma Program.ofRule_withRules (snapshot : Snapshot) (rules : Dict String) (policy : FieldPolicy)
    (rule : String) :
    ofRule { snapshot with rules } policy rule = ofRule snapshot policy rule := by
  have hadmits : ∀ path ∈ Snapshot.mentioned rule,
      AdmitsAlike (fun _ => False) snapshot { snapshot with rules } policy policy path :=
    fun _ _ => .inl rfl
  exact (ofRule_follows hadmits).eq

namespace Engine

variable {engine : Engine} {snapshot : Snapshot} {rules : Dict String}

/-- References to rules with comparisons turned round are entered alike.

**Proof sketch.** The trail is the same, so both are refused alike. The rule that is found, if there
is one, is turned by `hrules`. -/
lemma entry_turned
    (hrules : ∀ name,
      Option.Rel (Turned snapshot engine.policy) (snapshot.rule? name) (rules.get? name))
    (trail : Trail) (name : String) :
    Matches Eq (Turned snapshot engine.policy) (engine.entry snapshot trail name)
      (engine.entry { snapshot with rules } trail name) := by
  unfold entry
  split_ifs
  · exact .error rfl
  · exact .error rfl
  · have hfind : ∀ snapshot : Snapshot, snapshot.findRule name =
        (snapshot.rule? name).elim (.error (.unknownAudience name)) .ok := by
      intro snapshot
      unfold Snapshot.findRule
      cases snapshot.rule? name <;> rfl
    have hrule := hrules name
    rw [hfind, hfind]
    change Matches _ _ _ ((rules.get? name).elim _ _)
    generalize snapshot.rule? name = found, rules.get? name = found' at hrule
    cases hrule with
    | some hrule => exact .ok hrule
    | none => exact .error rfl

/-- A rule with a comparison turned round matches the other one on a trail on which references
match. -/
lemma outcomeOn_turned_of_refer {traced : Bool} {trail : Trail}
    (hrefer : ∀ name column column', Matches RuleError.SameKind (fun a b => a.1 = b.1)
      (engine.refer snapshot traced trail name column)
      (engine.refer { snapshot with rules } traced trail name column'))
    {rule rule' : String} (hrule : Turned snapshot engine.policy rule rule') :
    Matches RuleError.SameKind (fun a b => a.1 = b.1)
      (engine.outcomeOn snapshot traced trail rule)
      (engine.outcomeOn { snapshot with rules } traced trail rule') := by
  have haround : (engine.around snapshot traced trail).Matches
      (engine.around { snapshot with rules } traced trail) := ⟨fun _ => rfl, hrefer⟩
  unfold outcomeOn
  rw [Program.ofRule_withRules snapshot rules]
  exact hrule.ofRule.bind fun _ _ hcode => Program.outcome_matches haround hcode

/-- References to rules with comparisons turned round match at any columns.

**Proof sketch.** Induction on the number of audiences that are not on the trail. If the reference
is entered, then the two rules are the same up to a comparison turned round, and the references
inside them match by the hypothesis. -/
theorem refer_turned
    (hrules : ∀ name,
      Option.Rel (Turned snapshot engine.policy) (snapshot.rule? name) (rules.get? name))
    (traced : Bool) (trail : Trail) (name : String) (column column' : Nat) :
    Matches RuleError.SameKind (fun a b => a.1 = b.1)
      (engine.refer snapshot traced trail name column)
      (engine.refer { snapshot with rules } traced trail name column') := by
  induction hn : (snapshot.unvisited trail.chain).length using Nat.strongRecOn
    generalizing trail name column column' with
  | ind n ih =>
    rw [refer_eq_bind, refer_eq_bind]
    have hentry : Matches RuleError.SameKind (Turned snapshot engine.policy)
        ((engine.entry snapshot trail name).mapError (⟨·, column⟩))
        ((engine.entry { snapshot with rules } trail name).mapError (⟨·, column'⟩)) := by
      refine (entry_turned hrules trail name).mapError ?_
      rintro fault _ rfl
      exact .columns fault column column'
    refine hentry.bind_of_eq_ok fun rule rule' hentered _ hrule => ?_
    obtain ⟨hcyclic, -, hregistered⟩ := entry_eq_ok_iff.1 (mapError_eq_ok_iff.1 hentered)
    have hfewer := Snapshot.length_unvisited_cons_lt hregistered hcyclic
    exact outcomeOn_turned_of_refer
      (fun inner place place' => ih _ (hn ▸ hfewer) (trail.enter name) inner place place' rfl) hrule

/-- **A literal may stand on either side of a variable.** Let a comparison in parentheses be turned
round in a rule, and in any of the registered rules: a comparison of a variable and a literal, or an
equality or inequality of any two operands. Then the rule has the same truth value, or errors of the
same kind, which differ in the column and in the order of the operands that are printed at most. -/
theorem outcome_turned
    (hrules : ∀ name,
      Option.Rel (Turned snapshot engine.policy) (snapshot.rule? name) (rules.get? name))
    {rule rule' : String} (hrule : Turned snapshot engine.policy rule rule') :
    Matches RuleError.SameKind Eq (engine.outcome snapshot rule)
      (engine.outcome { snapshot with rules } rule') := by
  unfold outcome outcomeFor
  exact (outcomeOn_turned_of_refer (refer_turned hrules false _) hrule).map fun _ _ h => h

/-- A reference that is turned round, and a registered rule with its literal brought to the
front.

**Proof sketch.** That the tokens of both comparisons are those that are exchanged is computed, and
so is the first outcome. The second one is the same by the theorem. -/
theorem outcome_turned_reference :
    let snapshot : Snapshot :=
      { profile := "Guest", role := "Admin", rules := .ofList [("staff", "(Role =~ 'Ad')")] }
    let rules : Dict String := .ofList [("staff", "( 'Ad'=~Role )")]
    let rule := "Profile != 'Guest' || (Audience == 'staff') && Domain == ''"
    let rule' := "Profile != 'Guest' || ('staff' == Audience) && Domain == ''"
    (∀ name, Option.Rel (Turned snapshot .lenient) (snapshot.rule? name) (rules.get? name)) ∧
      Turned snapshot .lenient rule rule' ∧
      Engine.outcome {} snapshot rule = .ok true ∧
      Engine.outcome {} { snapshot with rules } rule' = .ok true := by
  intro snapshot rules rule rule'
  have hturned : ∀ (before inner inner' after : String) (op : Operator) (a b : Atom),
      Atom.MayTurn op a b → (lexemesOf before).isOk = true →
      HasTokens snapshot .lenient inner [a.token, .operator op, b.token] →
      HasTokens snapshot .lenient inner' [b.token, .operator op, a.token] →
      Turned snapshot .lenient (before ++ "(" ++ inner ++ ")" ++ after)
        (before ++ "(" ++ inner' ++ ")" ++ after) := by
    intro before inner inner' after op a b h hbefore hinner hinner'
    refine .turn h (fun column herror => ?_) hinner hinner'
    rw [herror] at hbefore
    cases hbefore
  have hstaff : Turned snapshot .lenient "(Role =~ 'Ad')" "( 'Ad'=~Role )" :=
    hturned "" "Role =~ 'Ad'" " 'Ad'=~Role " "" .startsWith (.variable (.named .role)) (.text "Ad")
      (by decide) (by decide) (by unfold snapshot; decide +kernel)
      (by unfold snapshot; decide +kernel)
  have hrules : ∀ name,
      Option.Rel (Turned snapshot .lenient) (snapshot.rule? name) (rules.get? name) := by
    intro name
    have hget : ∀ rule : String, (Dict.ofList [("staff", rule)]).get? name =
        if name = "staff" then some rule else none := fun _ => Dict.get?_insert
    change Option.Rel _ ((Dict.ofList _).get? name) ((Dict.ofList _).get? name)
    rw [hget, hget]
    split_ifs
    · exact .some hstaff
    · exact .none
  have hrule : Turned snapshot .lenient rule rule' :=
    hturned "Profile != 'Guest' || " "Audience == 'staff'" "'staff' == Audience" " && Domain == ''"
      .equal (.variable (.named .audience)) (.text "staff") (by decide) (by decide)
      (by unfold snapshot; decide +kernel) (by unfold snapshot; decide +kernel)
  have hvalue : Engine.outcome {} snapshot rule = .ok true := by
    unfold snapshot rule
    rw [← toOption_eq_some_iff]
    decide +kernel
  exact ⟨hrules, hrule, hvalue, (outcome_turned hrules hrule).eq_ok hvalue⟩

end Engine

end Targeting
