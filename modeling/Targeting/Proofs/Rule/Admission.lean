import Targeting.Proofs.Failure
import Targeting.Rule.Program
import Targeting.Snapshot.Draft

/-!
# Rules read in two snapshots

What a rule is read as depends on the snapshot and on the policy only by the fields that the rule
mentions and that it may speak of. If one snapshot admits the fields that another one does, then
the rule has the same program in it, or the other one refuses a word.

## Main definitions

* `Targeting.AdmitsAlike` — whether a field is admitted alike, or refused with an excused fault.

## Main results

* `Targeting.Snapshot.mem_mentioned_iff` — the fields that a rule mentions are spelled by its words.
* `Targeting.Program.ofRule_follows` — the program of a rule follows that in another snapshot.
-/

set_option autoImplicit false

namespace Targeting

/-- The fields that a rule mentions are those that its words spell. -/
lemma Snapshot.mem_mentioned_iff {rule : String} {path : FieldPath} :
    path ∈ mentioned rule ↔ ∃ lexemes, lexemesOf rule = .ok lexemes ∧
      ∃ word column, ⟨.word word, column⟩ ∈ lexemes ∧ FieldPath.ofWord? word = some path := by
  unfold mentioned
  cases lexemesOf rule with
  | error error => simp
  | ok lexemes =>
    simp only [List.mem_filterMap, Except.ok.injEq, exists_eq_left']
    constructor
    · rintro ⟨⟨value, column⟩, hmem, hpath⟩
      cases value with
      | word word => exact ⟨word, column, hmem, hpath⟩
      | quoted | operator | opening | closing => cases hpath
    · rintro ⟨word, column, hmem, hpath⟩
      exact ⟨_, hmem, hpath⟩

/-- A field is admitted exactly when the object has a record, and the record has the field or the
policy is lenient. -/
lemma Token.admits_eq_true_iff {snapshot : Snapshot} {policy : FieldPolicy} {path : FieldPath} :
    admits snapshot policy path = true ↔
      (snapshot.record? path.object).isSome = true ∧
        ((snapshot.field? path).isSome = true ∨ policy = .lenient) := by
  unfold admits Snapshot.field?
  cases snapshot.record? path.object <;> simp [Dict.contains]

/-- Whether a field is admitted in two snapshots alike, or is refused in the second one, with a
fault that is excused. -/
def AdmitsAlike (excused : Fault → Prop) (snapshot snapshot' : Snapshot)
    (policy policy' : FieldPolicy) (path : FieldPath) : Prop :=
  Token.admits snapshot' policy' path = Token.admits snapshot policy path ∨
    Token.admits snapshot' policy' path = false ∧ excused (.unknownVariable path.text)

variable {excused : Fault → Prop} {snapshot snapshot' : Snapshot} {policy policy' : FieldPolicy}

namespace Token

/-- A word is the same token in two snapshots if the field that it spells is admitted alike.

**Proof sketch.** Truth values and attributes do not depend on the snapshot. A path is admitted
alike, or it is refused in the second snapshot, where the fault is excused. -/
lemma ofWord_follows {word : String}
    (h : ∀ path, FieldPath.ofWord? word = some path →
      AdmitsAlike excused snapshot snapshot' policy policy' path) :
    Follows excused Eq (ofWord snapshot policy word) (ofWord snapshot' policy' word) := by
  unfold ofWord
  cases readTruth? word with
  | some b => exact .ok rfl
  | none =>
    cases Attribute.ofName? word with
    | some a => exact .ok rfl
    | none =>
      cases hpath : FieldPath.ofWord? word with
      | none => exact .error _
      | some path =>
        dsimp only
        rcases h path hpath with heq | ⟨hrefused, hexcused⟩
        · rw [heq]
          exact .refl (fun _ => rfl) _
        · rw [if_neg (ne_true_of_eq_false hrefused)]
          rw [FieldPath.text_of_ofWord? hpath] at hexcused
          exact .excused hexcused

/-- Lexemes are the same tokens in two snapshots if their words are.

**Proof sketch.** Induction on the lexemes. Only a word depends on the snapshot, and of it the claim
is assumed. -/
lemma ofLexemes_follows {lexemes : List (Located Lexeme)}
    (h : ∀ word column, ⟨.word word, column⟩ ∈ lexemes →
      Follows excused Eq (ofWord snapshot policy word) (ofWord snapshot' policy' word)) :
    Follows (excused ·.fault) Eq (ofLexemes snapshot policy lexemes)
      (ofLexemes snapshot' policy' lexemes) := by
  induction lexemes with
  | nil => exact .ok rfl
  | cons lexeme rest ih =>
    obtain ⟨value, column⟩ := lexeme
    have hrest := ih fun word column hmem => h word column (List.mem_cons_of_mem _ hmem)
    have hfirst : Follows excused Eq (ofLexeme snapshot policy value)
        (ofLexeme snapshot' policy' value) := by
      cases value with
      | word word => exact h word column List.mem_cons_self
      | quoted | operator | opening | closing => exact .ok rfl
    unfold ofLexemes
    dsimp only
    generalize ofLexeme snapshot policy value = x, ofLexeme snapshot' policy' value = x' at hfirst
    cases hfirst with
    | error fault => exact .error _
    | excused hfault => exact .excused hfault
    | ok heq =>
      refine hrest.bind ?_
      rintro tokens _ rfl
      exact .ok (heq ▸ rfl)

end Token

/-- **A rule is read alike where its fields are admitted alike.** Its program in one snapshot
follows that in another one if all fields that it mentions are admitted in both, or in neither, or
are refused in the second with a fault that is excused.

**Proof sketch.** Both programs are compiled from the same lexemes. A word with a path is admitted
alike by assumption, since the rule mentions the path, and other words do not depend on the
snapshot. Neither does the check of the tokens. -/
theorem Program.ofRule_follows {rule : String}
    (h : ∀ path ∈ Snapshot.mentioned rule,
      AdmitsAlike excused snapshot snapshot' policy policy' path) :
    Follows (excused ·.fault) Eq (ofRule snapshot policy rule) (ofRule snapshot' policy' rule) := by
  have htokens : Follows (excused ·.fault) Eq (tokensOf snapshot policy rule)
      (tokensOf snapshot' policy' rule) := by
    unfold tokensOf
    cases hlexemes : lexemesOf rule with
    | error error => exact .error error
    | ok lexemes =>
      refine Token.ofLexemes_follows fun word column hmem => ?_
      refine Token.ofWord_follows fun path hpath => ?_
      exact h path (Snapshot.mem_mentioned_iff.2 ⟨lexemes, hlexemes, word, column, hmem, hpath⟩)
  refine htokens.bind ?_
  rintro tokens _ rfl
  exact .refl (fun _ => rfl) _

end Targeting
