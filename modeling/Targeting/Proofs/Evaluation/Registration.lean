import Targeting.Proofs.Evaluation.SideBySide
import Targeting.Proofs.Snapshot.Filling

/-!
# One more audience

A rule that is registered for one more audience has its effect on the others only where they failed:
at a reference to the new audience, or at a word for a field that is filled in because the new rule
mentions it. Whatever succeeded without the rule comes to the same with it, whether the new rule can
be read or not and under whichever policies the snapshot is built and evaluated.

## Main results

* `Targeting.Snapshot.foldl_edit_rule` — when a rule is registered does not matter.
* `Targeting.Engine.alike_registered` — an engine does alike with one more rule.
* `Targeting.Engine.register_preserves` — what succeeds without a rule succeeds with it.
-/

set_option autoImplicit false

namespace Targeting

/-! ## When a rule is registered -/

namespace Snapshot

/-- Whether an edit registers an audience. -/
def Edit.Registers (audience : String) : Edit → Prop
  | rule other _ => other = audience
  | _ => False

variable {audience : String} {edits : List Edit}

/-- An edit that does not register an audience leaves its rule as it is. -/
lemma Draft.rule?_edit {edit : Edit} (h : ¬ edit.Registers audience) (draft : Draft) :
    (draft.edit edit).snapshot.rule? audience = draft.snapshot.rule? audience := by
  cases edit with
  | rule other text => rw [rule?_edit_rule, if_neg (fun heq => h heq.symm)]
  | _ => rfl

/-- A rule may be registered before or after an edit that does not register the same audience. -/
lemma Draft.edit_rule_comm {edit : Edit} (h : ¬ edit.Registers audience) (draft : Draft)
    (text : String) :
    (draft.edit (.rule audience text)).edit edit =
      (draft.edit edit).edit (.rule audience text) := by
  cases edit with
  | rule other inner =>
    simp only [Draft.edit]
    rw [Dict.insert_comm (fun heq => h heq.symm)]
  | _ => rfl

/-- After edits that do not register an audience its rule is what it was. -/
lemma rule?_foldl_edit (h : ∀ edit ∈ edits, ¬ edit.Registers audience) (draft : Draft) :
    (edits.foldl Draft.edit draft).snapshot.rule? audience = draft.snapshot.rule? audience := by
  induction edits generalizing draft with
  | nil => rfl
  | cons edit edits ih =>
    rw [List.foldl_cons, ih fun other hmem => h other (List.mem_cons_of_mem _ hmem),
      Draft.rule?_edit (h edit List.mem_cons_self)]

/-- A rule may be registered before or after edits that do not register the same audience. -/
lemma foldl_edit_rule (h : ∀ edit ∈ edits, ¬ edit.Registers audience) (draft : Draft)
    (text : String) :
    edits.foldl Draft.edit (draft.edit (.rule audience text)) =
      (edits.foldl Draft.edit draft).edit (.rule audience text) := by
  induction edits generalizing draft with
  | nil => rfl
  | cons edit edits ih =>
    rw [List.foldl_cons, List.foldl_cons, Draft.edit_rule_comm (h edit List.mem_cons_self),
      ih fun other hmem => h other (List.mem_cons_of_mem _ hmem)]

end Snapshot

/-! ## Engines with one more rule -/

namespace Engine

variable {audience : String} {draft : Snapshot.Draft}

/-- Whether a fault is one that a further rule for an audience can mend: the audience has no rule,
or a word names nothing. -/
def Mended (audience : String) (fault : Fault) : Prop :=
  fault = .unknownAudience audience ∨ ∃ word, fault = .unknownVariable word

/-- A rule has the same program with one more rule registered, or it has an unknown word without. -/
lemma sameProgram_registered (engine : Engine) (h : draft.snapshot.rule? audience = none)
    (text rule : String) :
    engine.SameProgram (Mended audience) engine (draft.edit (.rule audience text)).finish
      draft.finish rule :=
  Program.ofRule_follows fun path _ =>
    (Snapshot.Draft.finish_fills h text).admitsAlike (fun word => .inr ⟨word, rfl⟩) engine.policy
      path

/-- The rules that are found with one more rule registered are those that are found without, unless
it is the new one. -/
lemma findRule_registered (engine : Engine) (h : draft.snapshot.rule? audience = none)
    (text name : String) :
    Follows (Mended audience)
      (fun rule rule' => rule = rule' ∧ engine.SameProgram (Mended audience) engine
        (draft.edit (.rule audience text)).finish draft.finish rule)
      ((draft.edit (.rule audience text)).finish.findRule name) (draft.finish.findRule name) := by
  unfold Snapshot.findRule
  rw [Snapshot.Draft.rule?_finish, Snapshot.Draft.rule?_finish, Snapshot.Draft.rule?_edit_rule]
  split_ifs with hname
  · rw [hname, h]
    exact .excused (.inl rfl)
  · cases draft.snapshot.rule? name with
    | none => exact .error _
    | some rule => exact .ok ⟨rfl, engine.sameProgram_registered h text rule⟩

/-- With one more rule registered an engine does alike, unless it meets without the rule a fault
that the rule mends. -/
lemma alike_registered (engine : Engine) (h : draft.snapshot.rule? audience = none)
    (text : String) :
    Alike (Mended audience) Eq engine engine (draft.edit (.rule audience text)).finish
      draft.finish :=
  .of_findRule rfl (Snapshot.Draft.finish_fills h text).ofVariable
    (engine.findRule_registered h text)

/-- **One more audience does not disturb the others.** Let edits not register an audience. If a rule
or a report succeeds in the snapshot that they build, then it succeeds with the same result, the
same steps and the same names in the one that they build together with a rule for this audience,
whatever its text and wherever it is registered among them.

**Proof sketch.** The rule may be registered last, since no edit behind it is about the audience.
Then the draft differs in the one rule only, and all other rules do alike in both snapshots, by
`Targeting.Engine.alike_registered`: what is different is a fault of an audience that is not
registered. So what succeeds in the smaller snapshot succeeds alike in the larger one. -/
theorem register_preserves (engine : Engine) {before after : List Snapshot.Edit} {audience : String}
    (hfresh : ∀ edit ∈ before ++ after, ¬ edit.Registers audience) (text : String) :
    (∀ name report, engine.report (Snapshot.ofEdits (before ++ after)) name = .ok report →
      engine.report (Snapshot.ofEdits (before ++ .rule audience text :: after)) name =
        .ok report) ∧
    ∀ rule result, engine.outcome (Snapshot.ofEdits (before ++ after)) rule = .ok result →
      engine.outcome (Snapshot.ofEdits (before ++ .rule audience text :: after)) rule =
        .ok result := by
  have hnone : ((before ++ after).foldl Snapshot.Draft.edit {}).snapshot.rule? audience = none :=
    Snapshot.rule?_foldl_edit hfresh {}
  have hedits : (before ++ .rule audience text :: after).foldl Snapshot.Draft.edit {} =
      ((before ++ after).foldl Snapshot.Draft.edit {}).edit (.rule audience text) := by
    rw [List.foldl_append, List.foldl_append, List.foldl_cons]
    exact Snapshot.foldl_edit_rule (fun edit hmem => hfresh edit (List.mem_append_right _ hmem)) _ _
  have halike := engine.alike_registered hnone text
  unfold Snapshot.ofEdits
  rw [hedits]
  constructor
  · intro name report h
    have hfollows := halike.report rfl rfl (engine.findRule_registered hnone text name)
    exact hfollows.eq_ok h
  · intro rule result h
    have haudience := congrArg Snapshot.audience (Snapshot.Draft.finish_fills hnone text).attributes
    have hfollows := halike.outcome haudience (fun _ => rfl)
      (engine.sameProgram_registered hnone text rule)
    exact hfollows.eq_ok h

/-- A new rule that refers to itself and for which a field is filled in. -/
theorem register_preserves_circle :
    let before : List Snapshot.Edit :=
      [.record "Account", .rule "home" "Account.City == 'Bern' || 'true' == 'true'"]
    let after : List Snapshot.Edit :=
      [.rule "any" "Audience == 'home'", .fields "Account" [("City", .text "Rom")]]
    let report : Report := ⟨"any", true, [], .ofList ["Audience"]⟩
    (∀ edit ∈ before ++ after, ¬ edit.Registers "new") ∧
      Engine.report { policy := .strict } (Snapshot.ofEdits (before ++ after)) "any" = .ok report ∧
      Engine.report { policy := .strict } (Snapshot.ofEdits
        (before ++ .rule "new" "Account.Zip == '1' && Audience == 'new'" :: after)) "any" =
          .ok report := by
  intro before after report
  have hfresh : ∀ edit ∈ before ++ after, ¬ edit.Registers "new" := by
    simp [before, after, Snapshot.Edit.Registers]
  have hreport : Engine.report { policy := .strict } (Snapshot.ofEdits (before ++ after)) "any" =
      .ok report := by
    unfold before after report
    exact toOption_eq_some_iff.1 (by decide +kernel)
  exact ⟨hfresh, hreport,
    (register_preserves { policy := .strict } hfresh _).1 "any" report hreport⟩

end Engine

end Targeting
