import Mathlib.Data.List.Nodup
import Mathlib.Data.List.Perm.Basic
import Targeting.Sorted.Dict

/-!
# Entries put into a map

Entries are put into a map one after the other. Of several with one key the last one counts, so what
a key has afterwards is the last value among them, or else what it had before. Where the keys are
different, the order does not matter: the entries of the map are those that were put in.

## Main definitions

* `Targeting.lastOf?` — the last of the values that items have.

## Main results

* `Targeting.Dict.get?_foldl_insert_eq_or` — what a key has after entries are put into a map.
* `Targeting.Dict.get?_foldl_insert` — the same for the entries of a map, in any order.
* `Targeting.Dict.perm_entries_ofList`, `Targeting.Dict.ofList_entries` — maps made from entries.
-/

set_option autoImplicit false

namespace Targeting

/-! ## The last value -/

section LastOf

variable {α β : Type} {f : α → Option β} {items : List α}

/-- The last of the values that items have. -/
def lastOf? (f : α → Option β) (items : List α) : Option β := (items.filterMap f).getLast?

/-- The last value of items is that of the others, or else that of the first. -/
lemma lastOf?_cons (f : α → Option β) (a : α) (items : List α) :
    lastOf? f (a :: items) = (lastOf? f items).or (f a) := by
  rw [lastOf?, List.filterMap_cons, lastOf?]
  cases f a with
  | none => simp
  | some b => rw [List.getLast?_cons]; cases (items.filterMap f).getLast? <;> rfl

/-- There is a last value exactly when there is a value. -/
lemma isSome_lastOf?_iff : (lastOf? f items).isSome = true ↔ ∃ a ∈ items, (f a).isSome = true := by
  induction items with
  | nil => simp [lastOf?]
  | cons a items ih =>
    rw [lastOf?_cons, Option.isSome_or, Bool.or_eq_true, ih, List.exists_mem_cons_iff, or_comm]

/-- The last value is one that an item has. -/
lemma exists_of_lastOf?_eq_some {b : β} (h : lastOf? f items = some b) :
    ∃ a ∈ items, f a = some b :=
  List.mem_filterMap.1 (List.mem_of_getLast? h)

end LastOf

namespace Dict

variable {α β : Type} {entries : List (String × α)} {dict : Dict α}

/-! ## Look-ups -/

/-- Among increasing entries only that of a key has a value at the key. -/
lemma filterMap_of_sorted (hsorted : entries.Pairwise fun a b => a.1 < b.1) (key : String)
    (f : α → Option β) :
    entries.filterMap (fun entry => if key = entry.1 then f entry.2 else none) =
      ((find? key entries).bind f).toList := by
  induction entries with
  | nil => rfl
  | cons entry entries ih =>
    obtain ⟨hbelow, hrest⟩ := List.pairwise_cons.1 hsorted
    rw [List.filterMap_cons, ih hrest, find?]
    split_ifs with hkey
    · rw [hkey, find?_eq_none_of_below hbelow, Option.bind_some]
      cases f entry.2 <;> rfl
    · rfl

/-- Among the entries of a map, in whatever order, only that of a key has a value at the key.

**Proof sketch.** In the order of the map it is `Targeting.Dict.filterMap_of_sorted`. In another
order the values are the same ones up to their order, and there is at most one of them. -/
lemma lastOf?_entries (h : entries.Perm dict.entries) (key : String) (f : α → Option β) :
    lastOf? (fun entry => if key = entry.1 then f entry.2 else none) entries =
      (dict.get? key).bind f := by
  have hperm := h.filterMap fun entry => if key = entry.1 then f entry.2 else none
  rw [filterMap_of_sorted dict.sorted] at hperm
  rw [lastOf?, get?]
  generalize (find? key dict.entries).bind f = value at hperm ⊢
  cases value with
  | none => rw [List.perm_nil.1 hperm]; rfl
  | some b => rw [List.perm_singleton.1 hperm]; rfl

/-- After entries are put into a map one after the other, a key has the last of its values, or else
the value that it had. -/
theorem get?_foldl_insert_eq_or (entries : List (String × α)) (onto : Dict α) (key : String) :
    (entries.foldl (fun dict entry => dict.insert entry.1 entry.2) onto).get? key =
      (lastOf? (fun entry => if entry.1 = key then some entry.2 else none) entries).or
        (onto.get? key) := by
  induction entries generalizing onto with
  | nil => rfl
  | cons entry entries ih =>
    rw [List.foldl_cons, ih, lastOf?_cons, Option.or_assoc, get?_insert]
    congr 1
    by_cases hkey : entry.1 = key
    · rw [if_pos hkey.symm, if_pos hkey, Option.some_or]
    · rw [if_neg fun h => hkey h.symm, if_neg hkey, Option.none_or]

/-- After the entries of a map are put into another one, in whatever order, their values stand
before those that were there. -/
theorem get?_foldl_insert (h : entries.Perm dict.entries) (onto : Dict α) (key : String) :
    (entries.foldl (fun dict entry => dict.insert entry.1 entry.2) onto).get? key =
      (dict.get? key).or (onto.get? key) := by
  have hlast := lastOf?_entries h key some
  rw [Option.bind_fun_some] at hlast
  rw [get?_foldl_insert_eq_or, ← hlast]
  simp only [eq_comm]

/-- An entry that is alone with its key is found there after the entries are put into a map.

**Proof sketch.** There is a last value at the key, since the entry has one. It comes from an entry
with the same key, which can only be this one. -/
lemma get?_foldl_insert_of_alone {entry : String × α} (hentry : entry ∈ entries)
    (halone : ∀ other ∈ entries, other.1 = entry.1 → other = entry) (onto : Dict α) :
    (entries.foldl (fun dict entry => dict.insert entry.1 entry.2) onto).get? entry.1 =
      some entry.2 := by
  have hsome : (lastOf? (fun other : String × α =>
      if other.1 = entry.1 then some other.2 else none) entries).isSome = true :=
    isSome_lastOf?_iff.2 ⟨entry, hentry, by rw [if_pos rfl]; rfl⟩
  obtain ⟨value, hvalue⟩ := Option.isSome_iff_exists.1 hsome
  obtain ⟨other, hother, heq⟩ := exists_of_lastOf?_eq_some hvalue
  split_ifs at heq with hkey
  obtain rfl := halone other hother hkey
  rw [get?_foldl_insert_eq_or, hvalue, Option.some_or, heq]

/-! ## Entries and keys -/

/-- A new key adds its entry to those that are there. -/
lemma perm_place {key : String} (h : key ∉ entries.map (·.1)) (value : α) :
    (place key value entries).Perm ((key, value) :: entries) := by
  induction entries with
  | nil => exact .refl _
  | cons entry entries ih =>
    obtain ⟨first, old⟩ := entry
    simp only [List.map_cons, List.mem_cons, not_or] at h
    rw [place]
    split_ifs with hless hsame
    · exact .refl _
    · exact absurd hsame h.1
    · exact ((ih h.2).cons _).trans (.swap ..)

/-- Entries with different keys are added to those that are there.

**Proof sketch.** Induction on the entries. The first one is added by `Targeting.Dict.perm_place`,
and its key is none of the others, so they are new to the larger map too. -/
lemma perm_foldl_insert (hdistinct : (entries.map (·.1)).Nodup)
    (hnew : ∀ entry ∈ entries, entry.1 ∉ dict.keys) :
    (entries.foldl (fun dict entry => dict.insert entry.1 entry.2) dict).entries.Perm
      (entries ++ dict.entries) := by
  induction entries generalizing dict with
  | nil => exact .refl _
  | cons entry entries ih =>
    obtain ⟨hnotMem, hdistinct⟩ := List.nodup_cons.1 hdistinct
    obtain ⟨hentry, hentries⟩ := List.forall_mem_cons.1 hnew
    have hplace : (dict.insert entry.1 entry.2).entries.Perm (entry :: dict.entries) :=
      perm_place hentry entry.2
    refine (ih hdistinct fun other hother hmem => ?_).trans
      ((hplace.append_left entries).trans List.perm_middle)
    rcases List.mem_cons.1 ((hplace.map (·.1)).subset hmem) with heq | hmem
    · exact hnotMem (heq ▸ List.mem_map_of_mem hother)
    · exact hentries other hother hmem

/-- The keys after entries with different keys are put into a map: theirs, and those of the map that
are not among them.

**Proof sketch.** No key is listed twice on either side, so it is enough that both sides have the
same keys. A key has a value afterwards if one of the entries has it, or the map before, by
`Targeting.Dict.get?_foldl_insert_eq_or`. -/
lemma perm_keys_foldl_insert (hdistinct : (entries.map (·.1)).Nodup) (onto : Dict α) :
    (entries.foldl (fun dict entry => dict.insert entry.1 entry.2) onto).keys.Perm
      (entries.map (·.1) ++ onto.keys.filter (· ∉ entries.map (·.1))) := by
  have hnodup : ∀ dict : Dict α, dict.keys.Nodup := fun dict =>
    List.pairwise_map.2 (dict.sorted.imp fun hless => String.ne_of_lt hless)
  refine (List.perm_ext_iff_of_nodup (hnodup _) ?_).2 fun key => ?_
  · refine hdistinct.append ((hnodup onto).filter _) fun key hkey hmem => ?_
    exact of_decide_eq_true (List.mem_filter.1 hmem).2 hkey
  · have hkeys : (lastOf? (fun entry : String × α =>
        if entry.1 = key then some entry.2 else none) entries).isSome = true ↔
          key ∈ entries.map (·.1) := by
      rw [isSome_lastOf?_iff, List.mem_map]
      refine exists_congr fun entry => and_congr_right fun _ => ?_
      split_ifs with hkey <;> simp [hkey]
    rw [mem_keys_iff, get?_foldl_insert_eq_or, Option.isSome_or, Bool.or_eq_true, hkeys,
      List.mem_append, List.mem_filter, ← mem_keys_iff, decide_eq_true_eq]
    tauto

/-! ## Maps made from entries -/

/-- The entries of a map are those it is made from, if their keys are different. -/
theorem perm_entries_ofList (h : (entries.map (·.1)).Nodup) :
    (ofList entries).entries.Perm entries := by
  have hperm : (ofList entries).entries.Perm (entries ++ []) :=
    perm_foldl_insert h fun _ _ => List.not_mem_nil
  rwa [List.append_nil] at hperm

/-- A map is made from its entries. -/
theorem ofList_entries (dict : Dict α) : ofList dict.entries = dict := by
  refine ext_get? fun key => ?_
  rw [ofList, get?_foldl_insert (.refl _), empty, get?]
  cases find? key dict.entries <;> rfl

/-- After entries are put into a map, no other ones are there but those that were there before.

**Proof sketch.** Induction on the entries. After the first one is put in, an entry of the map is
this one or was there before, by the look-up at its key. -/
lemma mem_of_mem_foldl_insert {entry : String × α}
    (h : entry ∈ (entries.foldl (fun dict entry => dict.insert entry.1 entry.2) dict).entries) :
    entry ∈ entries ∨ entry ∈ dict.entries := by
  induction entries generalizing dict with
  | nil => exact .inr h
  | cons first entries ih =>
    obtain ⟨key, value⟩ := entry
    rcases ih h with hmem | hmem
    · exact .inl (List.mem_cons_of_mem _ hmem)
    · rw [mem_entries_iff, get?_insert] at hmem
      split_ifs at hmem with hkey
      · obtain rfl := Option.some.inj hmem
        exact .inl (hkey ▸ List.mem_cons_self)
      · exact .inr (mem_entries_iff.2 hmem)

/-- A map made from entries has no other ones. -/
lemma mem_of_mem_entries_ofList {entry : String × α} (h : entry ∈ (ofList entries).entries) :
    entry ∈ entries :=
  (mem_of_mem_foldl_insert h).resolve_right List.not_mem_nil

/-- An entry that is alone with its key in a list is in the map of the list. -/
lemma mem_entries_ofList {entry : String × α} (hentry : entry ∈ entries)
    (halone : ∀ other ∈ entries, other.1 = entry.1 → other = entry) :
    entry ∈ (ofList entries).entries :=
  mem_entries_iff.2 (get?_foldl_insert_of_alone hentry halone _)

end Dict

end Targeting
