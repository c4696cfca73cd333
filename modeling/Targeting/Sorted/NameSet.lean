/-!
# Finite sets of names

A set of texts, held as its elements in increasing code point order. Two sets with the same
elements are equal, so a set may be compared, printed and stored without a choice of order.

## Main definitions

* `Targeting.NameSet` — the sets, with `insert`, `contains`, `union` and `ofList`.

## Main results

* `Targeting.NameSet.mem_insert`, `mem_union`, `mem_ofList` — the elements of each result.
* `Targeting.NameSet.ext_mem` — sets with the same elements are equal.
-/

set_option autoImplicit false

namespace Targeting

/-- A finite set of names: the elements in increasing order, each once. -/
structure NameSet where
  /-- The elements, in increasing order. -/
  toList : List String
  /-- The order is strict, so no element is listed twice. -/
  sorted : toList.Pairwise (· < ·)
deriving DecidableEq

namespace NameSet

/-! ## Insertion into an increasing list -/

/-- Puts a name at its place in an increasing list, unless the list has it already. -/
def place (name : String) : List String → List String
  | [] => [name]
  | first :: rest =>
    if name < first then name :: first :: rest
    else if name = first then first :: rest
    else first :: place name rest

/-- Placing a name adds that name and no other. -/
theorem mem_place {name x : String} {names : List String} :
    x ∈ place name names ↔ x = name ∨ x ∈ names := by
  induction names with
  | nil => simp [place]
  | cons first rest ih =>
    simp only [place]
    split
    · simp
    · split
      · rename_i _ same; simp [same]
      · simp only [List.mem_cons, ih]; grind

/-- Placing a name keeps the list increasing.

**Proof sketch.** Induction on the names. The new name comes in front if it is less than the first
one, is there already if it is the same, and otherwise is placed behind it, where all names are
greater than the first one. -/
theorem place_sorted {name : String} {names : List String} (sorted : names.Pairwise (· < ·)) :
    (place name names).Pairwise (· < ·) := by
  induction names with
  | nil => simp [place]
  | cons first rest ih =>
    obtain ⟨below, sortedRest⟩ := List.pairwise_cons.1 sorted
    simp only [place]
    split
    · rename_i less
      refine List.pairwise_cons.2 ⟨fun x mem => ?_, sorted⟩
      rcases List.mem_cons.1 mem with rfl | mem
      · exact less
      · exact String.lt_trans less (below x mem)
    · split
      · exact sorted
      · rename_i notLess distinct
        refine List.pairwise_cons.2 ⟨fun x mem => ?_, ih sortedRest⟩
        rcases mem_place.1 mem with rfl | mem
        · rcases String.le_total x first with le | le
          · exact absurd (String.le_antisymm le (String.not_lt.1 notLess)) distinct
          · exact Decidable.byContradiction fun notAbove =>
              distinct (String.le_antisymm (String.not_lt.1 notAbove) le)
        · exact below x mem

/-! ## Operations -/

/-- The set without elements. -/
def empty : NameSet := ⟨[], List.Pairwise.nil⟩

instance : EmptyCollection NameSet := ⟨empty⟩

instance : Inhabited NameSet := ⟨empty⟩

instance : Membership String NameSet := ⟨fun names name => name ∈ names.toList⟩

instance (name : String) (names : NameSet) : Decidable (name ∈ names) :=
  inferInstanceAs (Decidable (name ∈ names.toList))

/-- Whether the set has the name. -/
def contains (names : NameSet) (name : String) : Bool := decide (name ∈ names)

/-- The set with one more name. -/
def insert (names : NameSet) (name : String) : NameSet :=
  ⟨place name names.toList, place_sorted names.sorted⟩

/-- The set of the names in a list. -/
def ofList (names : List String) : NameSet := names.foldl insert empty

/-- The names of either set. -/
def union (left right : NameSet) : NameSet := right.toList.foldl insert left

/-! ## Elements -/

@[simp] theorem mem_toList {names : NameSet} {x : String} : x ∈ names.toList ↔ x ∈ names := Iff.rfl

@[simp] theorem contains_iff {names : NameSet} {x : String} :
    names.contains x = true ↔ x ∈ names := by simp [contains]

@[simp] theorem not_mem_empty {x : String} : x ∉ (∅ : NameSet) := by
  simp [← mem_toList, EmptyCollection.emptyCollection, empty]

/-- Insertion adds the name and no other. -/
@[simp] theorem mem_insert {names : NameSet} {name x : String} :
    x ∈ names.insert name ↔ x = name ∨ x ∈ names := mem_place

/-- Inserting the names of a list one by one adds them and no other. -/
theorem mem_foldl_insert {names : NameSet} {list : List String} {x : String} :
    x ∈ list.foldl insert names ↔ x ∈ list ∨ x ∈ names := by
  induction list generalizing names with
  | nil => simp
  | cons first rest ih => simp only [List.foldl_cons, ih, mem_insert, List.mem_cons]; grind

/-- A set built from a list has the elements of the list. -/
@[simp] theorem mem_ofList {list : List String} {x : String} : x ∈ ofList list ↔ x ∈ list := by
  have h := @mem_foldl_insert empty list x
  exact h.trans (or_iff_left not_mem_empty)

/-- A union has the elements of both sets. -/
@[simp] theorem mem_union {left right : NameSet} {x : String} :
    x ∈ left.union right ↔ x ∈ left ∨ x ∈ right := by
  rw [union, mem_foldl_insert, mem_toList]; exact Or.comm

/-- Increasing lists with the same elements are equal.

**Proof sketch.** Induction on both lists. Each first name is in the other list, and if they were
different each would be less than the other. The rest of both lists has the same names, since the
first one is less than all of these. -/
theorem eq_of_sorted_of_mem {left right : List String} (sortedLeft : left.Pairwise (· < ·))
    (sortedRight : right.Pairwise (· < ·)) (same : ∀ x, x ∈ left ↔ x ∈ right) : left = right := by
  induction left generalizing right with
  | nil =>
    cases right with
    | nil => rfl
    | cons y ys => exact absurd ((same y).2 (List.mem_cons_self ..)) (by simp)
  | cons x xs ih =>
    cases right with
    | nil => exact absurd ((same x).1 (List.mem_cons_self ..)) (by simp)
    | cons y ys =>
      obtain ⟨belowX, sortedXs⟩ := List.pairwise_cons.1 sortedLeft
      obtain ⟨belowY, sortedYs⟩ := List.pairwise_cons.1 sortedRight
      have head : x = y := by
        rcases List.mem_cons.1 ((same x).1 (List.mem_cons_self ..)) with eq | memYs
        · exact eq
        · rcases List.mem_cons.1 ((same y).2 (List.mem_cons_self ..)) with eq | memXs
          · exact eq.symm
          · exact absurd (belowX y memXs) (String.lt_asymm (belowY x memYs))
      subst head
      refine congrArg _ (ih sortedXs sortedYs fun z => ⟨fun mem => ?_, fun mem => ?_⟩)
      · rcases List.mem_cons.1 ((same z).1 (List.mem_cons_of_mem _ mem)) with eq | memYs
        · exact absurd (belowX z mem) (eq ▸ String.lt_irrefl _)
        · exact memYs
      · rcases List.mem_cons.1 ((same z).2 (List.mem_cons_of_mem _ mem)) with eq | memXs
        · exact absurd (belowY z mem) (eq ▸ String.lt_irrefl _)
        · exact memXs

/-- Sets with the same elements are equal. -/
theorem ext_mem {left right : NameSet} (same : ∀ x, x ∈ left ↔ x ∈ right) : left = right := by
  obtain ⟨l, sortedLeft⟩ := left
  obtain ⟨r, sortedRight⟩ := right
  obtain rfl := eq_of_sorted_of_mem sortedLeft sortedRight same
  rfl

end NameSet

end Targeting
