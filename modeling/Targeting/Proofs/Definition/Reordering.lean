import Targeting.Proofs.Definition.Numbering

/-!
# The order in which criteria are listed

The criteria of a definition are sorted by their numbers before anything else is done with them:
before their conditions are formed one after the other, up to the first one at fault, and before the
fields that they speak of are collected. The sort is stable, so what becomes of a definition depends
on the order of its criteria only where several have the same number.

## Main results

* `Targeting.Definition.ordered_congr` — the criteria with each number, in their order, determine
  the order of all.
* `Targeting.Definition.toRule_congr` — and with it the rule, the fields and the fault.
* `Targeting.Definition.toRule_perm` — criteria with different numbers may be listed in any order.
-/

set_option autoImplicit false

namespace Targeting

/-- Of items with different keys, those with one key are the same ones in any order of the items.

**Proof sketch.** Induction on the exchanges that lead from the one order to the other. Of two
neighbours that change places, at most one has the key. -/
lemma filter_eq_of_perm {α β : Type} [DecidableEq β] {key : α → β} {left right : List α}
    (hperm : left.Perm right) (hdistinct : (left.map key).Nodup) (k : β) :
    left.filter (fun a => key a = k) = right.filter fun a => key a = k := by
  induction hperm with
  | nil => rfl
  | cons a _ ih =>
    rw [List.filter_cons, List.filter_cons, ih (List.nodup_cons.1 hdistinct).2]
  | swap a b rest =>
    have hne : key b ≠ key a := by
      simp only [List.map_cons, List.nodup_cons, List.mem_cons, not_or] at hdistinct
      exact hdistinct.1.1
    by_cases ha : key a = k
    · have hb : key b ≠ k := fun hb => hne (hb.trans ha.symm)
      simp [ha, hb]
    · simp [List.filter_cons, ha]
  | trans hfirst _ ih ih' =>
    exact (ih hdistinct).trans (ih' ((hfirst.map key).nodup_iff.1 hdistinct))

namespace Definition

variable {definition other : Definition}

/-- The order of criteria is determined by those with each number, in their order.

**Proof sketch.** The criteria in the order of their numbers are determined by those with each
number, by `Targeting.eq_of_pairwise_of_filter`, and sorting leaves these in the order in which they
were listed. -/
lemma ordered_congr (h : ∀ number : UInt32,
      definition.criteria.filter (fun criterion => criterion.number = number) =
        other.criteria.filter fun criterion => criterion.number = number) :
    definition.ordered = other.ordered := by
  have hnumber : ∀ criteria : List Criterion, ∀ number : UInt32,
      criteria.filter (fun criterion => (criterion.number.toNat : Int) = number.toNat) =
        criteria.filter fun criterion => criterion.number = number := by
    intro criteria number
    refine List.filter_congr fun criterion _ => decide_eq_decide.2 ?_
    rw [Int.ofNat_inj, UInt32.toNat_inj]
  refine eq_of_pairwise_of_filter (sortByKey_pairwise _ _) (sortByKey_pairwise _ _) fun k => ?_
  simp only [ordered, filter_sortByKey]
  by_cases hk : ∃ number : UInt32, (number.toNat : Int) = k
  · obtain ⟨number, rfl⟩ := hk
    rw [hnumber, hnumber, h number]
  · -- no criterion has this key
    have hnone : ∀ criteria : List Criterion,
        criteria.filter (fun criterion => (criterion.number.toNat : Int) = k) = [] := by
      intro criteria
      refine List.filter_eq_nil_iff.2 fun criterion _ hkey => hk ⟨criterion.number, ?_⟩
      exact of_decide_eq_true hkey
    rw [hnone, hnone]

/-- Definitions that list the same criteria with each number, in the same order, have the same rule
and the same fields, or the same fault. -/
theorem toRule_congr (hname : definition.name = other.name)
    (hcombination : definition.combination = other.combination)
    (hformula : definition.formula = other.formula)
    (hcriteria : ∀ number : UInt32,
      definition.criteria.filter (fun criterion => criterion.number = number) =
        other.criteria.filter fun criterion => criterion.number = number) :
    definition.toRule = other.toRule := by
  have hcombine : definition.combine = other.combine := by
    funext conditions
    rw [combine, combine, hcombination, hformula]
  rw [toRule, toRule, ordered_congr hcriteria, hcombine, hname]

/-- **The order of criteria does not matter.** A definition whose criteria have different numbers
comes to the same if they are listed in another order: to the same rule with the same fields or, if
there is none, to the same error. -/
theorem toRule_perm (definition : Definition) {criteria : List Criterion}
    (hperm : criteria.Perm definition.criteria)
    (hdistinct : (definition.criteria.map (·.number)).Nodup) :
    { definition with criteria := criteria }.toRule = definition.toRule := by
  refine toRule_congr rfl rfl rfl fun number => ?_
  exact filter_eq_of_perm hperm ((hperm.map (·.number)).nodup_iff.2 hdistinct) number

/-- Two criteria of a formula in the other order, and two criteria at fault in front of which the
order of the numbers decides.

**Proof sketch.** The rule and the error are computed for one order of the criteria each. For the
other order they follow from the theorem. -/
theorem toRule_perm_two :
    let profile : Criterion :=
      { number := 1, operator := "Equal", type := "Profile", details := { profile := "Partner" } }
    let field : Criterion :=
      { number := 20, operator := "StartsWith", type := "FieldBased",
        details := { entityType := "Account", entityField := "$City", fieldValue := "San" } }
    let unknown : Criterion := { number := 3, operator := "Like", type := "Profile" }
    let missing : Criterion := { number := 7, operator := "Equal", type := "FieldBased" }
    let formula (criteria : List Criterion) : Definition :=
      { name := "Partners", criteria, formula := some "20 OR 1", combination := .formula }
    ([field, profile].Perm [profile, field] ∧
      (formula [field, profile]).toRule =
        .ok ⟨"Partners", "Account.City =~ 'San' || Profile == 'Partner'",
          .add ∅ ⟨"Account", "City"⟩⟩) ∧
    [missing, field, unknown].Perm [unknown, missing, field] ∧
      (formula [missing, field, unknown]).toRule =
        .error (.criterion (.unknownOperator "Like" 3)) := by
  intro profile field unknown missing formula
  have hswap : [field, profile].Perm [profile, field] := .swap ..
  have hmove : [missing, field, unknown].Perm [unknown, missing, field] := by
    unfold missing field unknown
    decide
  have hrule : (formula [profile, field]).toRule =
      .ok ⟨"Partners", "Account.City =~ 'San' || Profile == 'Partner'",
        .add ∅ ⟨"Account", "City"⟩⟩ := by
    rw [← toOption_eq_some_iff]
    unfold formula profile field
    decide +kernel
  have hfault : (formula [unknown, missing, field]).toRule =
      .error (.criterion (.unknownOperator "Like" 3)) := rfl
  have hsame := toRule_perm (formula [profile, field]) hswap
    (by unfold formula profile field; decide)
  have hsameFault := toRule_perm (formula [unknown, missing, field]) hmove
    (by unfold formula unknown missing field; decide)
  exact ⟨⟨hswap, hsame.trans hrule⟩, hmove, hsameFault.trans hfault⟩

end Definition

end Targeting
