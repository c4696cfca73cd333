import Mathlib.Tactic.Lemma
import Mathlib.Tactic.SplitIfs
import Targeting.Sorted.ByKey

/-!
# Stable sorts are unique

A list in increasing order of its keys is determined by its items with each key, in their order. So
all stable sorts agree, and sorting commutes with what keeps the order of the items with one key.

## Main results

* `Targeting.eq_of_pairwise_of_filter` — a sorted list is determined by its items with each key.
* `Targeting.sortByKey_eq_mergeSort` — sorting by insertion agrees with sorting by merging.
* `Targeting.sortByKey_append_singleton` — one more item may be sorted into what is sorted already.
* `Targeting.filter_sortByKey_of` — sorting commutes with leaving items out.
* `Targeting.sortByKey_pairwise_of` — the order of sorted items, by key and then as before.
-/

set_option autoImplicit false

namespace Targeting

universe u v

variable {α : Type u} {β : Type v} {key : α → Int}

/-- Of two lists in increasing order with the same items of each key, the first item of the one has
no larger key than that of the other. -/
lemma le_of_filter_eq {x y : α} {xs ys : List α} (hsorted : (y :: ys).Pairwise (key · ≤ key ·))
    (h : (x :: xs).filter (fun a => key a = key x) = (y :: ys).filter fun a => key a = key x) :
    key y ≤ key x := by
  have hmem : x ∈ (y :: ys).filter fun a => key a = key x := by
    rw [← h]
    exact List.mem_filter.2 ⟨List.mem_cons_self .., by simp⟩
  rcases List.mem_cons.1 (List.mem_filter.1 hmem).1 with rfl | hmem
  · exact Int.le_refl _
  · exact List.rel_of_pairwise_cons hsorted hmem

/-- **A sorted list is determined by its items with each key.** Two lists in increasing order of the
keys are equal if they have the same items with each key, in the same order.

**Proof sketch.** Induction on the lists. Their first items have the same key, since each of the two
lists has an item with the key of the other's first one; so they are the first items with this
key. -/
theorem eq_of_pairwise_of_filter {left right : List α} (hleft : left.Pairwise (key · ≤ key ·))
    (hright : right.Pairwise (key · ≤ key ·))
    (h : ∀ k, left.filter (fun a => key a = k) = right.filter fun a => key a = k) :
    left = right := by
  induction left generalizing right with
  | nil =>
    cases right with
    | nil => rfl
    | cons y ys => simpa using h (key y)
  | cons x xs ih =>
    cases right with
    | nil => simpa using h (key x)
    | cons y ys =>
      have hkey : key x = key y :=
        Int.le_antisymm (le_of_filter_eq hleft (h (key y)).symm)
          (le_of_filter_eq hright (h (key x)))
      have hhead := h (key x)
      rw [List.filter_cons_of_pos (by simp), List.filter_cons_of_pos (by simp [hkey])] at hhead
      obtain ⟨rfl, -⟩ := List.cons.inj hhead
      refine congrArg (x :: ·) (ih hleft.of_cons hright.of_cons fun k => ?_)
      have hk := h k
      by_cases hx : key x = k
      · rw [List.filter_cons_of_pos (by simpa using hx),
          List.filter_cons_of_pos (by simpa using hx)] at hk
        exact (List.cons.inj hk).2
      · rwa [List.filter_cons_of_neg (by simpa using hx),
          List.filter_cons_of_neg (by simpa using hx)] at hk

/-- Merging keeps the order of the items with one key.

**Proof sketch.** The items with the key are in order as they stand, so they are a sublist of the
sorted list, by `List.sublist_mergeSort`. They are as many as those with the key in it, since
sorting permutes, so they are all of them. -/
lemma filter_mergeSort (key : α → Int) (k : Int) (items : List α) :
    (items.mergeSort fun a b => key a ≤ key b).filter (fun a => key a = k) =
      items.filter fun a => key a = k := by
  -- the items with the key are in order, so they are a sublist of the sorted ones
  have hordered : (items.filter fun a => key a = k).Pairwise fun a b => decide (key a ≤ key b) := by
    refine List.pairwise_of_forall_mem_list ?_
    intro a ha b hb
    have ha : key a = k := by simpa using (List.mem_filter.1 ha).2
    have hb : key b = k := by simpa using (List.mem_filter.1 hb).2
    simp [ha, hb]
  have hsublist : (items.filter fun a => key a = k).Sublist
      (items.mergeSort fun a b => key a ≤ key b) :=
    List.sublist_mergeSort (by simpa using fun a b c => Int.le_trans)
      (by simpa using fun a b => Int.le_total _ _) hordered List.filter_sublist
  have hfilter := hsublist.filter fun a => decide (key a = k)
  rw [List.filter_filter] at hfilter
  simp only [Bool.and_self] at hfilter
  exact (hfilter.eq_of_length
    ((List.mergeSort_perm items _).filter fun a => decide (key a = k)).length_eq.symm).symm

/-- Sorting by insertion agrees with sorting by merging. -/
theorem sortByKey_eq_mergeSort (key : α → Int) (items : List α) :
    sortByKey key items = items.mergeSort fun a b => key a ≤ key b := by
  have hsorted : (items.mergeSort fun a b => key a ≤ key b).Pairwise
      fun a b => decide (key a ≤ key b) :=
    List.pairwise_mergeSort (by simpa using fun a b c => Int.le_trans)
      (by simpa using fun a b => Int.le_total _ _) items
  refine eq_of_pairwise_of_filter (sortByKey_pairwise key items) (by simpa using hsorted) ?_
  intro k
  rw [filter_sortByKey, filter_mergeSort]

/-- One more item may be sorted into what is sorted already. -/
lemma sortByKey_append_singleton (key : α → Int) (items : List α) (item : α) :
    sortByKey key (sortByKey key items ++ [item]) = sortByKey key (items ++ [item]) := by
  refine eq_of_pairwise_of_filter (sortByKey_pairwise key _) (sortByKey_pairwise key _) fun k => ?_
  simp only [filter_sortByKey, List.filter_append]

/-- Sorting commutes with leaving items out. -/
lemma filter_sortByKey_of (key : α → Int) (p : α → Bool) (items : List α) :
    (sortByKey key items).filter p = sortByKey key (items.filter p) := by
  refine eq_of_pairwise_of_filter ((sortByKey_pairwise key items).filter p)
    (sortByKey_pairwise key _) fun k => ?_
  have hswap : ∀ l : List α, (l.filter p).filter (fun a => key a = k) =
      (l.filter fun a => key a = k).filter p := by
    intro l
    simp only [List.filter_filter, Bool.and_comm]
  rw [hswap, filter_sortByKey, ← hswap, filter_sortByKey]

/-- What is sorted already is left as it is. -/
lemma sortByKey_sortByKey (key : α → Int) (items : List α) :
    sortByKey key (sortByKey key items) = sortByKey key items :=
  eq_of_pairwise_of_filter (sortByKey_pairwise key _) (sortByKey_pairwise key _) fun k =>
    filter_sortByKey key k _

/-- Insertion puts an item behind those with smaller keys and in front of all others.

**Proof sketch.** Induction on the items. If the key is at most the first one, the item goes in
front, and its key is at most all others. Otherwise the first item stays in front of the new one,
whose key is greater, and of the others, as before. -/
lemma insertByKey_pairwise_of {R : α → α → Prop} {item : α} {items : List α}
    (hitems : items.Pairwise fun a b => key a < key b ∨ key a = key b ∧ R a b)
    (hitem : ∀ a ∈ items, R item a) :
    (insertByKey key item items).Pairwise fun a b => key a < key b ∨ key a = key b ∧ R a b := by
  induction items with
  | nil => exact List.pairwise_singleton _ _
  | cons first rest ih =>
    obtain ⟨hfirst, hrest⟩ := List.pairwise_cons.1 hitems
    rw [insertByKey]
    split_ifs with hle
    · refine List.pairwise_cons.2 ⟨fun a ha => ?_, hitems⟩
      have hkey : key first ≤ key a := by
        rcases List.mem_cons.1 ha with rfl | ha
        · exact Int.le_refl _
        · rcases hfirst a ha with hlt | ⟨heq, -⟩ <;> omega
      rcases Int.lt_or_eq_of_le (Int.le_trans hle hkey) with hlt | heq
      · exact .inl hlt
      · exact .inr ⟨heq, hitem a ha⟩
    · refine List.pairwise_cons.2 ⟨fun a ha => ?_, ih hrest (List.forall_mem_cons.1 hitem).2⟩
      rcases List.mem_cons.1 ((insertByKey_perm key item rest).mem_iff.1 ha) with rfl | ha
      · exact .inl (Int.lt_of_not_ge hle)
      · exact hfirst a ha

/-- Sorted items are in the order of their keys, and those with one key are related as they were
before. -/
lemma sortByKey_pairwise_of {R : α → α → Prop} {items : List α} (h : items.Pairwise R) :
    (sortByKey key items).Pairwise fun a b => key a < key b ∨ key a = key b ∧ R a b := by
  induction items with
  | nil => exact .nil
  | cons item rest ih =>
    obtain ⟨hitem, hrest⟩ := List.pairwise_cons.1 h
    exact insertByKey_pairwise_of (ih hrest) fun a ha =>
      hitem a ((sortByKey_perm key rest).mem_iff.1 ha)

/-- Sorting the images of items is sorting the items by the keys of their images. -/
lemma sortByKey_map (key : β → Int) (f : α → β) (items : List α) :
    sortByKey key (items.map f) = (sortByKey (fun a => key (f a)) items).map f := by
  have hinsert : ∀ (item : α) (items : List α), insertByKey key (f item) (items.map f) =
      (insertByKey (fun a => key (f a)) item items).map f := by
    intro item items
    induction items with
    | nil => rfl
    | cons first rest ih =>
      simp only [List.map_cons, insertByKey]
      split_ifs
      · rfl
      · rw [ih, List.map_cons]
  induction items with
  | nil => rfl
  | cons item rest ih => rw [List.map_cons, sortByKey, ih, hinsert, sortByKey]

/-- Sorting looks at nothing but the keys of the items. -/
lemma sortByKey_congr {key key' : α → Int} {items : List α} (h : ∀ a ∈ items, key a = key' a) :
    sortByKey key items = sortByKey key' items := by
  have hmem : ∀ {a}, a ∈ sortByKey key' items → key a = key' a :=
    fun ha => h _ ((sortByKey_perm key' items).mem_iff.1 ha)
  refine eq_of_pairwise_of_filter (sortByKey_pairwise key items) ?_ fun k => ?_
  · refine (sortByKey_pairwise key' items).imp_of_mem fun ha hb hle => ?_
    rwa [hmem ha, hmem hb]
  · have hleft : (sortByKey key' items).filter (fun a => key a = k) =
        (sortByKey key' items).filter fun a => key' a = k :=
      List.filter_congr fun a ha => by rw [hmem ha]
    have hright : items.filter (fun a => key a = k) = items.filter fun a => key' a = k :=
      List.filter_congr fun a ha => by rw [h a ha]
    rw [filter_sortByKey, hleft, filter_sortByKey, hright]

end Targeting
