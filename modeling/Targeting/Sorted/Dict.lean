/-!
# Finite maps keyed by name

A map from texts to values, held as its entries in increasing code point order of the keys, so
that iteration has one order and two maps with the same look-ups are equal.

## Main definitions

* `Targeting.Dict` — the maps, with `get?`, `insert`, `erase`, `keys` and `ofList`.

## Main results

* `Targeting.Dict.get?_insert`, `get?_erase` — a look-up after one change.
* `Targeting.Dict.ext_get?` — maps with the same look-ups are equal.
-/

set_option autoImplicit false

namespace Targeting

universe u

/-- A finite map from names: the entries in increasing order of their keys, each key once. -/
structure Dict (α : Type u) where
  /-- The entries, in increasing order of their keys. -/
  entries : List (String × α)
  /-- The order of the keys is strict, so no key is listed twice. -/
  sorted : entries.Pairwise (fun a b => a.1 < b.1)
deriving DecidableEq

namespace Dict

variable {α : Type u}

/-! ## Increasing lists of entries -/

/-- The value at a key in a list of entries: the first one listed. -/
def find? (key : String) : List (String × α) → Option α
  | [] => none
  | (first, value) :: rest => if key = first then some value else find? key rest

/-- Puts an entry at its place in an increasing list, in place of an entry with the same key. -/
def place (key : String) (value : α) : List (String × α) → List (String × α)
  | [] => [(key, value)]
  | (first, old) :: rest =>
    if key < first then (key, value) :: (first, old) :: rest
    else if key = first then (key, value) :: rest
    else (first, old) :: place key value rest

/-- The keys after placing an entry are that key and the old ones. -/
theorem key_of_mem_place {key : String} {value : α} {entries : List (String × α)}
    {entry : String × α} (mem : entry ∈ place key value entries) :
    entry.1 = key ∨ entry ∈ entries := by
  induction entries with
  | nil => simp only [place, List.mem_singleton] at mem; exact .inl (by rw [mem])
  | cons head rest ih =>
    obtain ⟨first, old⟩ := head
    simp only [place] at mem
    split at mem
    · rcases List.mem_cons.1 mem with rfl | mem
      · exact .inl rfl
      · exact .inr mem
    · split at mem
      · rcases List.mem_cons.1 mem with rfl | mem
        · exact .inl rfl
        · exact .inr (List.mem_cons_of_mem _ mem)
      · rcases List.mem_cons.1 mem with rfl | mem
        · exact .inr (List.mem_cons_self ..)
        · exact (ih mem).imp id (List.mem_cons_of_mem _)

/-- Placing an entry keeps the keys increasing.

**Proof sketch.** Induction on the entries. The new entry comes in front if its key is less than the
first one, takes the place of the first one if it is the same, and otherwise is placed behind it,
where all keys are greater than the first one or are the new one. -/
theorem place_sorted {key : String} {value : α} {entries : List (String × α)}
    (sorted : entries.Pairwise (fun a b => a.1 < b.1)) :
    (place key value entries).Pairwise (fun a b => a.1 < b.1) := by
  induction entries with
  | nil => simp [place]
  | cons head rest ih =>
    obtain ⟨first, old⟩ := head
    obtain ⟨below, sortedRest⟩ := List.pairwise_cons.1 sorted
    simp only [place]
    split
    · rename_i less
      refine List.pairwise_cons.2 ⟨fun entry mem => ?_, sorted⟩
      rcases List.mem_cons.1 mem with rfl | mem
      · exact less
      · exact String.lt_trans less (below entry mem)
    · split
      · rename_i same
        exact List.pairwise_cons.2 ⟨fun entry mem => same ▸ below entry mem, sortedRest⟩
      · rename_i notLess distinct
        refine List.pairwise_cons.2 ⟨fun entry mem => ?_, ih sortedRest⟩
        rcases key_of_mem_place mem with eq | mem
        · exact Decidable.byContradiction fun notAbove =>
            distinct
              (String.le_antisymm (String.not_lt.1 (eq ▸ notAbove)) (String.not_lt.1 notLess))
        · exact below entry mem

/-- A look-up after placing an entry sees that entry at its key and the old ones elsewhere. -/
theorem find?_place {key other : String} {value : α} {entries : List (String × α)} :
    find? other (place key value entries) =
      if other = key then some value else find? other entries := by
  induction entries with
  | nil => simp [place, find?]
  | cons head rest ih =>
    obtain ⟨first, old⟩ := head
    simp only [place]
    split
    · simp [find?]
    · split
      · rename_i _ same; subst same; simp only [find?]; split <;> rfl
      · rename_i _ distinct
        simp only [find?, ih]
        by_cases h : other = first
        · subst h; simp [Ne.symm distinct]
        · simp [h]

/-- A key below all keys of a list has no entry there. -/
theorem find?_eq_none_of_below {key : String} {entries : List (String × α)}
    (below : ∀ entry ∈ entries, key < entry.1) : find? key entries = none := by
  induction entries with
  | nil => rfl
  | cons head rest ih =>
    have distinct : key ≠ head.1 := fun eq =>
      String.lt_irrefl _ (eq ▸ below head (List.mem_cons_self ..))
    simp [find?, distinct, ih fun entry mem => below entry (List.mem_cons_of_mem _ mem)]

/-! ## Operations -/

/-- The map without entries. -/
def empty : Dict α := ⟨[], List.Pairwise.nil⟩

instance : EmptyCollection (Dict α) := ⟨empty⟩

instance : Inhabited (Dict α) := ⟨empty⟩

/-- The value at a key. -/
def get? (dict : Dict α) (key : String) : Option α := find? key dict.entries

/-- Whether a key has a value. -/
def contains (dict : Dict α) (key : String) : Bool := (dict.get? key).isSome

/-- The map with a value at a key, in place of an earlier one. -/
def insert (dict : Dict α) (key : String) (value : α) : Dict α :=
  ⟨place key value dict.entries, place_sorted dict.sorted⟩

/-- The map without an entry at a key. -/
def erase (dict : Dict α) (key : String) : Dict α :=
  ⟨dict.entries.filter (·.1 ≠ key), dict.sorted.filter _⟩

/-- The keys, in increasing order. -/
def keys (dict : Dict α) : List String := dict.entries.map (·.1)

/-- The number of keys. -/
def size (dict : Dict α) : Nat := dict.entries.length

/-- The map of a list of entries; of several with one key the last counts. -/
def ofList (entries : List (String × α)) : Dict α :=
  entries.foldl (fun dict entry => dict.insert entry.1 entry.2) empty

/-! ## Look-ups -/

@[simp] theorem get?_empty {key : String} : (∅ : Dict α).get? key = none := rfl

/-- After an insertion the new value stands at its key and the old ones elsewhere. -/
theorem get?_insert {dict : Dict α} {key other : String} {value : α} :
    (dict.insert key value).get? other = if other = key then some value else dict.get? other :=
  find?_place

@[simp] theorem get?_insert_self {dict : Dict α} {key : String} {value : α} :
    (dict.insert key value).get? key = some value := by simp [get?_insert]

/-- After an erasure the key has no value and the other values stand. -/
theorem get?_erase {dict : Dict α} {key other : String} :
    (dict.erase key).get? other = if other = key then none else dict.get? other := by
  simp only [get?, erase]
  induction dict.entries with
  | nil => simp [find?]
  | cons head rest ih =>
    obtain ⟨first, value⟩ := head
    by_cases removed : first = key
    · subst removed
      simp only [ne_eq, not_true_eq_false, decide_false, Bool.false_eq_true, not_false_eq_true,
        List.filter_cons_of_neg, ih, find?]
      split <;> rfl
    · rw [List.filter_cons_of_pos (by simpa using removed)]
      simp only [find?, ih]
      by_cases h : other = first
      · subst h; simp [removed]
      · simp [h]

/-- A key is listed exactly when it has a value. -/
theorem mem_keys_iff {dict : Dict α} {key : String} : key ∈ dict.keys ↔ (dict.get? key).isSome := by
  simp only [keys, get?]
  induction dict.entries with
  | nil => simp [find?]
  | cons head rest ih =>
    simp only [List.map_cons, List.mem_cons, find?, ih]
    split <;> simp_all

/-- An entry of an increasing list is the one that is found at its key. -/
theorem mem_iff_find? {key : String} {value : α} {entries : List (String × α)}
    (sorted : entries.Pairwise (fun a b => a.1 < b.1)) :
    (key, value) ∈ entries ↔ find? key entries = some value := by
  induction entries with
  | nil => simp [find?]
  | cons head rest ih =>
    obtain ⟨first, old⟩ := head
    obtain ⟨below, sortedRest⟩ := List.pairwise_cons.1 sorted
    simp only [List.mem_cons, find?, Prod.mk.injEq, ih sortedRest]
    split
    · rename_i same
      subst same
      simp [find?_eq_none_of_below below, eq_comm]
    · rename_i distinct
      simp [distinct]

/-- The entries of a map are the keys with their values. -/
theorem mem_entries_iff {dict : Dict α} {key : String} {value : α} :
    (key, value) ∈ dict.entries ↔ dict.get? key = some value :=
  mem_iff_find? dict.sorted

/-- Increasing lists of entries with the same look-ups are equal.

**Proof sketch.** Induction on both lists. Of two different first keys the smaller one would be
found in its own list and not in the other, whose keys are all greater. So the first keys are the
same, then the values are, and the rest of both lists agrees on this key too, since neither has it.
-/
theorem eq_of_sorted_of_find? {left right : List (String × α)}
    (sortedLeft : left.Pairwise (fun a b => a.1 < b.1))
    (sortedRight : right.Pairwise (fun a b => a.1 < b.1))
    (same : ∀ key, find? key left = find? key right) : left = right := by
  induction left generalizing right with
  | nil =>
    cases right with
    | nil => rfl
    | cons head rest => simpa [find?] using same head.1
  | cons x xs ih =>
    cases right with
    | nil => simpa [find?] using same x.1
    | cons y ys =>
      obtain ⟨xKey, xValue⟩ := x
      obtain ⟨yKey, yValue⟩ := y
      obtain ⟨belowX, sortedXs⟩ := List.pairwise_cons.1 sortedLeft
      obtain ⟨belowY, sortedYs⟩ := List.pairwise_cons.1 sortedRight
      have head : xKey = yKey := by
        have notBelow : ∀ {a b : String} {v w : α} {as bs : List (String × α)}, a < b →
            (∀ entry ∈ bs, b < entry.1) →
            find? a ((a, v) :: as) = find? a ((b, w) :: bs) → False := by
          intro a b v w as bs less below eq
          have absent : find? a bs = none :=
            find?_eq_none_of_below fun entry mem => String.lt_trans less (below entry mem)
          have distinct : a ≠ b := fun h => String.lt_irrefl _ (h ▸ less)
          simp [find?, distinct, absent] at eq
        have notLeft : ¬ xKey < yKey := fun less => notBelow less belowY (same xKey)
        have notRight : ¬ yKey < xKey := fun less => notBelow less belowX (same yKey).symm
        exact String.le_antisymm (String.not_lt.1 notRight) (String.not_lt.1 notLeft)
      subst head
      have value : xValue = yValue := by simpa [find?] using same xKey
      subst value
      refine congrArg _ (ih sortedXs sortedYs fun key => ?_)
      by_cases h : key = xKey
      · subst h
        rw [find?_eq_none_of_below belowX, find?_eq_none_of_below belowY]
      · simpa [find?, h] using same key

/-- Maps with the same look-ups are equal. -/
theorem ext_get? {left right : Dict α} (same : ∀ key, left.get? key = right.get? key) :
    left = right := by
  obtain ⟨l, sortedLeft⟩ := left
  obtain ⟨r, sortedRight⟩ := right
  obtain rfl := eq_of_sorted_of_find? sortedLeft sortedRight same
  rfl

/-- Insertions at different keys come to the same in either order. -/
theorem insert_comm {dict : Dict α} {key other : String} (distinct : key ≠ other)
    (value value' : α) :
    (dict.insert key value).insert other value' = (dict.insert other value').insert key value := by
  refine ext_get? fun name => ?_
  simp only [get?_insert]
  split
  · rename_i same
    rw [if_neg fun eq => distinct (eq.symm.trans same)]
  · rfl

end Dict

end Targeting
