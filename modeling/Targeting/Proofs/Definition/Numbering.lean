import Mathlib.Data.List.Nodup
import Targeting.Proofs.Definition.Condition
import Targeting.Proofs.Sorted.StableSort

/-!
# The numbers of criteria

The conditions of a definition are sorted by the numbers of their criteria, and of several with one
number the last is kept. Since the sort is stable, this is the criterion that is listed last with
the number.

## Main definitions

* `Targeting.Definition.lastNumbered?` — the last criterion with a number.
* `Targeting.Definition.Counts` — whether a criterion is the last one with its number.

## Main results

* `Targeting.Definition.find?_keepLast` — what is kept of a sorted list.
* `Targeting.Definition.mem_keepLast_iff` — a rule has the conditions of the criteria that count.
* `Targeting.Definition.textOf?_keepLast` — a formula names the last criterion with a number.
* `Targeting.Definition.counts_of_nodup` — criteria with different numbers all count.
* `Targeting.Definition.toRule_eq_ok_iff` — the rule of a definition, step by step.
-/

set_option autoImplicit false

namespace Targeting

/-- The condition of a criterion with its number; any condition if the criterion is at fault. -/
def Criterion.entry (criterion : Criterion) : UInt32 × Condition :=
  (criterion.number, criterion.condition.toOption.getD default)

/-- A criterion with a condition has it in its entry. -/
lemma Criterion.entry_eq {criterion : Criterion} {condition : Condition}
    (h : criterion.condition = .ok condition) :
    criterion.entry = (criterion.number, condition) := by
  rw [entry, h]
  rfl

namespace Definition

/-- The last criterion of a definition with a number. -/
def lastNumbered? (definition : Definition) (number : Nat) : Option Criterion :=
  (definition.criteria.filter (·.number.toNat = number)).getLast?

/-- Whether a criterion is the last one of a definition with its number. -/
def Counts (definition : Definition) (criterion : Criterion) : Prop :=
  definition.lastNumbered? criterion.number.toNat = some criterion

instance (definition : Definition) : DecidablePred definition.Counts := fun criterion =>
  inferInstanceAs (Decidable (definition.lastNumbered? criterion.number.toNat = some criterion))

/-- The last criterion with a number is one of the criteria and has the number. -/
lemma mem_of_lastNumbered? {definition : Definition} {number : Nat} {criterion : Criterion}
    (h : definition.lastNumbered? number = some criterion) :
    criterion ∈ definition.criteria ∧ criterion.number.toNat = number := by
  have hmem := List.mem_filter.1 (List.mem_of_getLast? h)
  exact ⟨hmem.1, of_decide_eq_true hmem.2⟩

/-- There is a last criterion with a number as soon as a criterion has the number. -/
lemma lastNumbered?_isSome_iff {definition : Definition} {number : Nat} :
    (definition.lastNumbered? number).isSome = true ↔
      ∃ criterion ∈ definition.criteria, criterion.number.toNat = number := by
  rw [lastNumbered?, List.getLast?_isSome, Ne, List.filter_eq_nil_iff]
  simp

/-- Criteria with different numbers all count. -/
theorem counts_of_nodup {definition : Definition}
    (h : (definition.criteria.map (·.number)).Nodup) :
    ∀ criterion ∈ definition.criteria, definition.Counts criterion := by
  intro criterion hmem
  obtain ⟨last, hlast⟩ :=
    Option.isSome_iff_exists.1 (lastNumbered?_isSome_iff.2 ⟨criterion, hmem, rfl⟩)
  obtain ⟨hlastmem, hnumber⟩ := mem_of_lastNumbered? hlast
  obtain rfl : last = criterion :=
    List.inj_on_of_nodup_map h hlastmem hmem (UInt32.toNat_inj.1 hnumber)
  exact hlast

/-! ## What is kept of a sorted list -/

section KeepLast

variable {α : Type} {entries : List (UInt32 × α)}

/-- Nothing is added to what is kept. -/
lemma keepLast_sublist (entries : List (UInt32 × α)) : (keepLast entries).Sublist entries := by
  fun_induction keepLast entries with
  | case1 first second rest heq ih => exact ih.trans (List.sublist_cons_self ..)
  | case2 first second rest hne ih => exact ih.cons_cons first
  | case3 entries => exact .refl _

/-- An entry of a sorted list whose number the next entry does not have is below all others. -/
lemma first_lt {first second : UInt32 × α} {rest : List (UInt32 × α)} (hne : first.1 ≠ second.1)
    (h : (first :: second :: rest).Pairwise fun a b => a.1 ≤ b.1) :
    ∀ entry ∈ second :: rest, first.1 < entry.1 := by
  obtain ⟨habove, hrest⟩ := List.pairwise_cons.1 h
  have hsecond : first.1 < second.1 :=
    UInt32.lt_of_le_of_ne (habove second (List.mem_cons_self ..)) hne
  intro entry hentry
  rcases List.mem_cons.1 hentry with rfl | hentry
  · exact hsecond
  · exact UInt32.lt_of_lt_of_le hsecond (List.rel_of_pairwise_cons hrest hentry)

/-- What is kept of a sorted list has increasing numbers. -/
lemma keepLast_pairwise (h : entries.Pairwise fun a b => a.1 ≤ b.1) :
    (keepLast entries).Pairwise fun a b => a.1 < b.1 := by
  fun_induction keepLast entries with
  | case1 first second rest heq ih => exact ih h.of_cons
  | case2 first second rest hne ih =>
    refine List.pairwise_cons.2 ⟨fun entry hentry => ?_, ih h.of_cons⟩
    exact first_lt hne h entry ((keepLast_sublist _).subset hentry)
  | case3 entries hshort =>
    match entries with
    | [] => exact .nil
    | [entry] => exact List.pairwise_singleton _ entry
    | first :: second :: rest => exact absurd rfl (hshort first second rest)

/-- Of the entries of a sorted list with one number the last is kept.

**Proof sketch.** Induction along the recursion. An entry that is dropped is not the last one with
its number; one that is kept is the only one left, as those behind it have larger numbers. -/
theorem find?_keepLast (h : entries.Pairwise fun a b => a.1 ≤ b.1) (number : UInt32) :
    (keepLast entries).find? (·.1 = number) = (entries.filter (·.1 = number)).getLast? := by
  fun_induction keepLast entries with
  | case1 first second rest heq ih =>
    rw [ih h.of_cons]
    by_cases hnumber : first.1 = number
    · have hsecond : second.1 = number := heq ▸ hnumber
      simp [hnumber, hsecond]
    · simp [hnumber]
  | case2 first second rest hne ih =>
    by_cases hnumber : first.1 = number
    · have hothers : (second :: rest).filter (·.1 = number) = [] := by
        refine List.filter_eq_nil_iff.2 fun entry hentry => ?_
        have hlt := first_lt hne h entry hentry
        rw [hnumber] at hlt
        simpa using (UInt32.ne_of_lt hlt).symm
      rw [List.filter_cons_of_pos (by simpa using hnumber), hothers]
      simp [hnumber]
    · rw [List.filter_cons_of_neg (by simpa using hnumber), ← ih h.of_cons]
      simp [hnumber]
  | case3 entries hshort =>
    match entries with
    | [] => rfl
    | [entry] => by_cases hnumber : entry.1 = number <;> simp [hnumber]
    | first :: second :: rest => exact absurd rfl (hshort first second rest)

/-- Each entry of a list with increasing numbers is the first one with its number. -/
lemma find?_of_mem (h : entries.Pairwise fun a b => a.1 < b.1) {entry : UInt32 × α}
    (hentry : entry ∈ entries) : entries.find? (·.1 = entry.1) = some entry := by
  induction entries with
  | nil => cases hentry
  | cons first rest ih =>
    obtain ⟨habove, hrest⟩ := List.pairwise_cons.1 h
    rcases List.mem_cons.1 hentry with rfl | hentry
    · exact List.find?_cons_of_pos (by simp)
    · have hne : first.1 ≠ entry.1 := UInt32.ne_of_lt (habove entry hentry)
      rw [List.find?_cons_of_neg (by simpa using hne)]
      exact ih hrest hentry

end KeepLast

/-! ## Conditions by their numbers -/

/-- Criteria have conditions exactly when none of them is at fault.

**Proof sketch.** Induction on the criteria. The first one is at fault, and then neither side holds,
or has a condition, which comes in front of those of the others. -/
lemma conditions_eq_ok_iff {criteria : List Criterion} {all : List (UInt32 × Condition)} :
    conditions criteria = .ok all ↔
      (∀ criterion ∈ criteria, criterion.condition.isOk = true) ∧
        all = criteria.map Criterion.entry := by
  induction criteria generalizing all with
  | nil =>
    constructor
    · intro h
      exact ⟨by simp, (Except.ok.inj h).symm⟩
    · rintro ⟨-, rfl⟩
      rfl
  | cons criterion rest ih =>
    rw [conditions, List.forall_mem_cons, List.map_cons]
    cases hcondition : criterion.condition with
    | error fault => exact iff_of_false (fun h => nomatch h) (fun h => nomatch h.1.1)
    | ok condition =>
      rw [criterion.entry_eq hcondition]
      change (conditions rest >>= fun others => .ok ((criterion.number, condition) :: others)) =
        .ok all ↔ _
      constructor
      · intro h
        obtain ⟨others, hothers, h⟩ := bind_eq_ok_iff.1 h
        obtain ⟨hok, rfl⟩ := ih.1 hothers
        exact ⟨⟨rfl, hok⟩, (Except.ok.inj h).symm⟩
      · rintro ⟨⟨-, hok⟩, rfl⟩
        exact bind_eq_ok_iff.2 ⟨_, ih.2 ⟨hok, rfl⟩, rfl⟩

section Conditions

variable {definition : Definition} {all : List (UInt32 × Condition)}

/-- The ordered criteria are the criteria. -/
lemma mem_ordered {criterion : Criterion} :
    criterion ∈ definition.ordered ↔ criterion ∈ definition.criteria :=
  (sortByKey_perm _ _).mem_iff

/-- Where the criteria of a definition have conditions, each of them has one. -/
lemma exists_condition (h : conditions definition.ordered = .ok all) {criterion : Criterion}
    (hmem : criterion ∈ definition.criteria) :
    ∃ condition, criterion.condition = .ok condition := by
  have hok := (conditions_eq_ok_iff.1 h).1 criterion (mem_ordered.2 hmem)
  cases hcondition : criterion.condition with
  | error fault =>
    rw [hcondition] at hok
    cases hok
  | ok condition => exact ⟨condition, rfl⟩

/-- The ordered criteria with one number are those listed with it, in their order. -/
lemma filter_ordered (definition : Definition) (number : Nat) :
    definition.ordered.filter (fun criterion => criterion.number.toNat = number) =
      definition.criteria.filter fun criterion => criterion.number.toNat = number := by
  have hsort := filter_sortByKey (fun criterion : Criterion => (criterion.number.toNat : Int))
    (number : Int) definition.criteria
  have hkey : ∀ criterion : Criterion,
      decide ((criterion.number.toNat : Int) = number) = decide (criterion.number.toNat = number) :=
    fun _ => decide_eq_decide.2 Int.ofNat_inj
  simpa only [ordered, hkey] using hsort

/-- The conditions of a definition are in the order of their numbers. -/
lemma pairwise_conditions (h : conditions definition.ordered = .ok all) :
    all.Pairwise fun a b => a.1 ≤ b.1 := by
  obtain ⟨-, rfl⟩ := conditions_eq_ok_iff.1 h
  rw [List.pairwise_map]
  refine (sortByKey_pairwise _ definition.criteria).imp fun {a b} hle => ?_
  exact UInt32.le_iff_toNat_le.2 (Int.ofNat_le.1 hle)

/-- Of the conditions with a number that of the last criterion with the number is kept. -/
theorem find?_keepLast_conditions (h : conditions definition.ordered = .ok all) (number : UInt32) :
    (keepLast all).find? (·.1 = number) =
      (definition.lastNumbered? number.toNat).map Criterion.entry := by
  rw [find?_keepLast (pairwise_conditions h)]
  obtain ⟨-, rfl⟩ := conditions_eq_ok_iff.1 h
  have hnumber : (fun criterion : Criterion => decide (criterion.entry.1 = number)) =
      fun criterion => decide (criterion.number.toNat = number.toNat) := by
    funext criterion
    exact decide_eq_decide.2 UInt32.toNat_inj.symm
  rw [List.filter_map, List.getLast?_map, lastNumbered?, ← filter_ordered]
  simp only [Function.comp_def, hnumber]

/-- **Which conditions a rule has.** The conditions that are kept are those of the criteria that
count.

**Proof sketch.** What is kept for a number is the entry of the last criterion with this number, by
`Targeting.Definition.find?_keepLast_conditions`. The numbers that are kept are different, so an
entry that is kept is the one that is found. -/
theorem mem_keepLast_iff (h : conditions definition.ordered = .ok all)
    {entry : UInt32 × Condition} :
    entry ∈ keepLast all ↔
      ∃ criterion ∈ definition.criteria, definition.Counts criterion ∧ criterion.entry = entry := by
  have hfind := find?_keepLast_conditions h
  constructor
  · intro hentry
    have hkept := hfind entry.1
    rw [find?_of_mem (keepLast_pairwise (pairwise_conditions h)) hentry] at hkept
    obtain ⟨criterion, hlast, rfl⟩ := Option.map_eq_some_iff.1 hkept.symm
    exact ⟨criterion, (mem_of_lastNumbered? hlast).1, hlast, rfl⟩
  · rintro ⟨criterion, -, hcounts, rfl⟩
    have hkept := hfind criterion.number
    rw [show definition.lastNumbered? criterion.number.toNat = some criterion from hcounts] at hkept
    exact List.mem_of_find?_eq_some hkept

/-- The condition that a formula names by a number is that of the last criterion with the number. -/
theorem textOf?_keepLast (h : conditions definition.ordered = .ok all) (number : UInt32) :
    textOf? (keepLast all) number =
      (definition.lastNumbered? number.toNat).map (·.entry.2.text) := by
  rw [textOf?, find?_keepLast_conditions h, Option.map_map]
  rfl

end Conditions

/-- A definition has a rule exactly when its criteria have conditions and these combine to a text
that is not blank. -/
theorem toRule_eq_ok_iff {definition : Definition} {defined : DefinedRule} :
    definition.toRule = .ok defined ↔
      ∃ all rule, conditions definition.ordered = .ok all ∧
        definition.combine (keepLast all) = .ok rule ∧ isBlank rule = false ∧
        defined = ⟨definition.name, rule, fieldsOf all⟩ := by
  rw [toRule, bind_eq_ok_iff]
  constructor
  · rintro ⟨all, hall, h⟩
    obtain ⟨rule, hrule, h⟩ := bind_eq_ok_iff.1 h
    refine ⟨all, rule, mapError_eq_ok_iff.1 hall, mapError_eq_ok_iff.1 hrule, ?_⟩
    split_ifs at h with hblank
    exact ⟨Bool.eq_false_iff.2 hblank, (Except.ok.inj h).symm⟩
  · rintro ⟨all, rule, hall, hrule, hblank, rfl⟩
    refine ⟨all, mapError_eq_ok_iff.2 hall,
      bind_eq_ok_iff.2 ⟨rule, mapError_eq_ok_iff.2 hrule, ?_⟩⟩
    rw [if_neg (by simp [hblank])]
    rfl

end Definition

end Targeting
