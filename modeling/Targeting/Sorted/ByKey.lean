/-!
# Stable sorting

Sorting by a whole-number key, where items with equal keys keep their order. The sort inserts one
item after the other, so it computes by recursion on the list alone.

## Main definitions

* `Targeting.sortByKey` — the sort.

## Main results

* `Targeting.sortByKey_perm`, `Targeting.sortByKey_pairwise`, `Targeting.filter_sortByKey` — the
  result has the same items, in increasing order of the keys, and those with one key in their order.
-/

set_option autoImplicit false

namespace Targeting

universe u

variable {α : Type u} (key : α → Int)

/-- Puts an item in front of the first item of a list whose key is not smaller. -/
def insertByKey (item : α) : List α → List α
  | [] => [item]
  | first :: rest =>
    if key item ≤ key first then item :: first :: rest else first :: insertByKey item rest

/-- The items of a list in increasing order of their keys; equal ones keep their order. -/
def sortByKey : List α → List α
  | [] => []
  | item :: rest => insertByKey key item (sortByKey rest)

/-- Insertion adds the item and no other. -/
theorem insertByKey_perm (item : α) (items : List α) :
    (insertByKey key item items).Perm (item :: items) := by
  induction items with
  | nil => exact .refl _
  | cons first rest ih =>
    simp only [insertByKey]
    split
    · exact .refl _
    · exact (ih.cons first).trans (.swap item first rest)

/-- Sorting neither loses nor adds an item. -/
theorem sortByKey_perm (items : List α) : (sortByKey key items).Perm items := by
  induction items with
  | nil => exact .refl _
  | cons item rest ih => exact (insertByKey_perm key item _).trans (ih.cons item)

/-- Insertion keeps the keys in increasing order. -/
theorem insertByKey_pairwise {item : α} {items : List α}
    (sorted : items.Pairwise (key · ≤ key ·)) :
    (insertByKey key item items).Pairwise (key · ≤ key ·) := by
  induction items with
  | nil => simp [insertByKey]
  | cons first rest ih =>
    obtain ⟨above, sortedRest⟩ := List.pairwise_cons.1 sorted
    simp only [insertByKey]
    split
    · rename_i le
      refine List.pairwise_cons.2 ⟨fun x mem => ?_, sorted⟩
      rcases List.mem_cons.1 mem with rfl | mem
      · exact le
      · exact Int.le_trans le (above x mem)
    · rename_i notLe
      refine List.pairwise_cons.2 ⟨fun x mem => ?_, ih sortedRest⟩
      rcases List.mem_cons.1 ((insertByKey_perm key item rest).mem_iff.1 mem) with rfl | mem
      · omega
      · exact above x mem

/-- The keys of the sorted items increase. -/
theorem sortByKey_pairwise (items : List α) :
    (sortByKey key items).Pairwise (key · ≤ key ·) := by
  induction items with
  | nil => exact .nil
  | cons item rest ih => exact insertByKey_pairwise key ih

/-- Insertion puts an item in front of the others with its key and changes no other order. -/
theorem filter_insertByKey (k : Int) (item : α) (items : List α) :
    (insertByKey key item items).filter (fun x => decide (key x = k)) =
      (item :: items).filter fun x => decide (key x = k) := by
  induction items with
  | nil => rfl
  | cons first rest ih =>
    simp only [insertByKey]
    split
    · rfl
    · rename_i notLe
      by_cases same : key first = k
      · have other : key item ≠ k := by omega
        simp [ih, same, other]
      · simp [List.filter_cons, ih, same]

/-- Sorting keeps the order of the items with one key. -/
theorem filter_sortByKey (k : Int) (items : List α) :
    (sortByKey key items).filter (fun x => decide (key x = k)) =
      items.filter fun x => decide (key x = k) := by
  induction items with
  | nil => rfl
  | cons item rest ih => simp only [sortByKey, filter_insertByKey, List.filter_cons, ih]

end Targeting
