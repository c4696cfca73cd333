import Targeting.Navigation.FlatRecord
import Targeting.Proofs.Json.Ordered

/-!
# The leaves of a record

A record is made flat by putting its leaves, one after the other, into the flat record: each at the
path of the keys that lead to it. So a path holds the value of the last leaf that has it, and all
other paths hold what they held before.

Two leaves may have one path. An empty key at the beginning leaves no trace in the path, and a point
inside a key looks like one between two keys. Where no key is empty or has a point, the path tells
the keys, so none of the leaves takes the place of another one.

## Main definitions

* `Targeting.Json.leaves` — the leaves of a value, each with the keys that lead to it.
* `Targeting.joinKeys` — a path with more keys.
* `Targeting.Json.HasPlainKeys` — whether no key of a value is empty or has a point.

## Main results

* `Targeting.flatRecord_eq_foldl` — a flat record holds the leaves, put in one after the other.
* `Targeting.Json.nodup_leaves` — no two leaves of a value in order have the same keys.
* `Targeting.joinKeys_injective` — the path of plain keys tells the keys.
* `Targeting.flatRecord_holds_leaves` — what a flat record holds.
-/

set_option autoImplicit false

namespace Targeting

/-! ## Leaves -/

namespace Json

mutual

/-- The leaves of a value, each with the keys that lead to it from the outside. The fields of an
object are gone through in their order, the leaves of each before those of the next; all that is no
object is a leaf. -/
def leaves : Json → List (List String × Json)
  | .object fields => leavesOf fields
  | value => [([], value)]

/-- The leaves of the fields of an object. -/
def leavesOf : List (String × Json) → List (List String × Json)
  | [] => []
  | (key, value) :: rest =>
    value.leaves.map (fun leaf => (key :: leaf.1, leaf.2)) ++ leavesOf rest

end

/-- The keys that lead to a leaf of an object begin with a key of the object. -/
lemma exists_key_of_mem_leavesOf {fields : List (String × Json)} {leaf : List String × Json}
    (h : leaf ∈ leavesOf fields) : ∃ field ∈ fields, ∃ keys, leaf.1 = field.1 :: keys := by
  induction fields with
  | nil => cases h
  | cons field fields ih =>
    rw [leavesOf, List.mem_append] at h
    rcases h with hfirst | hrest
    · obtain ⟨inner, -, rfl⟩ := List.mem_map.1 hfirst
      exact ⟨field, List.mem_cons_self, inner.1, rfl⟩
    · obtain ⟨other, hother, hkeys⟩ := ih hrest
      exact ⟨other, List.mem_cons_of_mem _ hother, hkeys⟩

mutual

/-- No two leaves of a value in order have the same keys. -/
theorem nodup_leaves : ∀ {value : Json}, value.IsOrdered → (value.leaves.map (·.1)).Nodup
  | .null, _ | .bool _, _ | .number _, _ | .string _, _ | .array _, _ => List.nodup_singleton _
  | .object _, ⟨hsorted, hfields⟩ => nodup_leavesOf hsorted hfields

/-- No two leaves of an object in order have the same keys. -/
theorem nodup_leavesOf : ∀ {fields : List (String × Json)},
    fields.Pairwise (fun a b => a.1 < b.1) → HaveOrder fields →
      ((leavesOf fields).map (·.1)).Nodup
  | [], _, _ => List.nodup_nil
  | (key, value) :: rest, hsorted, ⟨hvalue, hrest⟩ => by
    obtain ⟨hbelow, hsorted⟩ := List.pairwise_cons.1 hsorted
    have hfirst : ((value.leaves.map (·.1)).map (key :: ·)).Nodup :=
      (nodup_leaves hvalue).map (List.cons_injective)
    have hothers := nodup_leavesOf hsorted hrest
    rw [leavesOf, List.map_append, List.map_map]
    rw [List.map_map] at hfirst
    refine hfirst.append hothers fun keys hkeys hmem => ?_
    -- the first key of the one is the key of the field, that of the other comes behind it
    obtain ⟨_, -, rfl⟩ := List.mem_map.1 hkeys
    obtain ⟨leaf, hleaf, hsame⟩ := List.mem_map.1 hmem
    obtain ⟨field, hfield, inner, hinner⟩ := exists_key_of_mem_leavesOf hleaf
    rw [hinner] at hsame
    obtain rfl : field.1 = key := (List.cons.inj hsame).1
    exact String.lt_irrefl _ (hbelow field hfield)

end

/-- Whether none of the keys that lead to the leaves of a value is empty or has a point. -/
def HasPlainKeys (value : Json) : Prop :=
  ∀ leaf ∈ value.leaves, ∀ key ∈ leaf.1, key ≠ "" ∧ '.' ∉ key.toList

instance : DecidablePred HasPlainKeys := fun value =>
  inferInstanceAs
    (Decidable (∀ leaf ∈ value.leaves, ∀ key ∈ leaf.1, key ≠ "" ∧ '.' ∉ key.toList))

end Json

/-! ## Paths -/

/-- A path with more keys, one after the other. -/
def joinKeys (path : String) (keys : List String) : String := keys.foldl joinPath path

/-- Behind a path that is not empty, each key has a point in front. -/
lemma toList_joinKeys {path : String} (h : path ≠ "") (keys : List String) :
    (joinKeys path keys).toList = path.toList ++ keys.flatMap fun key => '.' :: key.toList := by
  induction keys generalizing path with
  | nil => simp [joinKeys]
  | cons key keys ih =>
    have hjoin : joinPath path key = path ++ "." ++ key := by simp [joinPath, h]
    have hne : joinPath path key ≠ "" := by
      rw [hjoin, ne_eq, ← String.toList_inj]
      simp
    rw [joinKeys, List.foldl_cons, ← joinKeys, ih hne, hjoin]
    simp

/-- The path of keys, of which the first is not empty, has the keys with a point in front of each
but the first. -/
lemma cons_toList_joinKeys {key : String} (h : key ≠ "") (keys : List String) :
    '.' :: (joinKeys "" (key :: keys)).toList =
      (key :: keys).flatMap fun key => '.' :: key.toList := by
  have hfirst : joinKeys "" (key :: keys) = joinKeys key keys := rfl
  rw [hfirst, toList_joinKeys h, List.flatMap_cons, List.cons_append]

/-- Keys without points can be told from their text with a point in front of each.

**Proof sketch.** Induction on the keys. A key without points ends where the next point stands, so
the first keys are the same, and then the rest of the texts are. -/
lemma eq_of_flatMap_point {keys keys' : List String} (h : ∀ key ∈ keys, '.' ∉ key.toList)
    (h' : ∀ key ∈ keys', '.' ∉ key.toList)
    (heq : (keys.flatMap fun key => '.' :: key.toList) =
      keys'.flatMap fun key => '.' :: key.toList) : keys = keys' := by
  -- a key ends where the next point is
  have htake : ∀ (key : String) (keys : List String), '.' ∉ key.toList →
      (key.toList ++ keys.flatMap fun key => '.' :: key.toList).takeWhile (· ≠ '.') =
        key.toList := by
    intro key keys hkey
    have hall : ∀ c ∈ key.toList, decide (c ≠ '.') = true :=
      fun c hc => decide_eq_true fun hpoint => hkey (hpoint ▸ hc)
    rw [List.takeWhile_append_of_pos hall]
    cases keys <;> simp
  induction keys generalizing keys' with
  | nil =>
    cases keys' with
    | nil => rfl
    | cons key' keys' => simp at heq
  | cons key keys ih =>
    cases keys' with
    | nil => simp at heq
    | cons key' keys' =>
      obtain ⟨hkey, hkeys⟩ := List.forall_mem_cons.1 h
      obtain ⟨hkey', hkeys'⟩ := List.forall_mem_cons.1 h'
      rw [List.flatMap_cons, List.flatMap_cons, List.cons_append, List.cons_append] at heq
      have hrest := List.tail_eq_of_cons_eq heq
      have hsame := congrArg (List.takeWhile (· ≠ '.')) hrest
      rw [htake key keys hkey, htake key' keys' hkey', String.toList_inj] at hsame
      subst hsame
      rw [ih hkeys hkeys' (List.append_cancel_left hrest)]

/-- **The path tells the keys.** Keys that are not empty and have no points are told from their
path.

**Proof sketch.** No keys have the empty path, and other keys do not, as none of them is empty. The
path with a point in front is the keys with a point in front of each, so
`Targeting.eq_of_flatMap_point` applies. -/
theorem joinKeys_injective {keys keys' : List String}
    (h : ∀ key ∈ keys, key ≠ "" ∧ '.' ∉ key.toList)
    (h' : ∀ key ∈ keys', key ≠ "" ∧ '.' ∉ key.toList)
    (heq : joinKeys "" keys = joinKeys "" keys') : keys = keys' := by
  -- no keys have the empty path, and no other ones have
  have hne : ∀ key keys, key ≠ "" → joinKeys "" (key :: keys) ≠ "" := by
    intro key keys hkey hpath
    have hchars := cons_toList_joinKeys hkey keys
    rw [hpath] at hchars
    simp [hkey] at hchars
  cases keys with
  | nil =>
    cases keys' with
    | nil => rfl
    | cons key' keys' => exact absurd heq.symm (hne key' keys' (h' key' List.mem_cons_self).1)
  | cons key keys =>
    have hkey := (h key List.mem_cons_self).1
    cases keys' with
    | nil => exact absurd heq (hne key keys hkey)
    | cons key' keys' =>
      have hkey' := (h' key' List.mem_cons_self).1
      refine eq_of_flatMap_point (fun k hk => (h k hk).2) (fun k hk => (h' k hk).2) ?_
      rw [← cons_toList_joinKeys hkey, ← cons_toList_joinKeys hkey', heq]

/-! ## Flat records -/

/-- The leaves of a value at a path as entries of a flat record. -/
def leafEntries (path : String) (value : Json) : List (String × Value) :=
  value.leaves.map fun leaf => (joinKeys path leaf.1, leafValue leaf.2)

mutual

/-- **Flat records hold leaves.** A value is made flat by putting its leaves into the flat record,
one after the other. -/
theorem flatRecord_eq_foldl : ∀ (path : String) (fields : Dict Value) (value : Json),
    flatRecord path fields value = (leafEntries path value).foldl
      (fun fields entry => fields.insert entry.1 entry.2) fields
  | _, _, .null | _, _, .bool _ | _, _, .number _ | _, _, .string _ | _, _, .array _ => rfl
  | path, fields, .object members => flatMembers_eq_foldl path fields members

/-- The members of an object are made flat by putting their leaves into the flat record. -/
theorem flatMembers_eq_foldl : ∀ (path : String) (fields : Dict Value)
    (members : List (String × Json)),
    flatMembers path fields members =
      ((Json.leavesOf members).map fun leaf => (joinKeys path leaf.1, leafValue leaf.2)).foldl
        (fun fields entry => fields.insert entry.1 entry.2) fields
  | _, _, [] => rfl
  | path, fields, (key, value) :: rest => by
    rw [flatMembers, flatMembers_eq_foldl, flatRecord_eq_foldl, Json.leavesOf, List.map_append,
      List.foldl_append, List.map_map]
    rfl

end

/-- **What a flat record holds.** After a value is made flat at a path, each path holds the value of
the last leaf that has it, or else what it held before. If the fields of all objects are in order
and no key on the way to a leaf is empty or has a point, then each leaf of the whole record has a
path of its own and is held there, and as many fields are written as there are leaves: besides
these, the flat record has the fields that it had at other paths.

**Proof sketch.** Making a record flat is putting its leaves into a map one after the other, by
`Targeting.flatRecord_eq_foldl`, so a path has the last of its values. If the keys are plain,
different leaves have different paths, by `Targeting.joinKeys_injective`. Then no entry takes the
place of another one, and the keys of the map are counted by
`Targeting.Dict.perm_keys_foldl_insert`. -/
theorem flatRecord_holds_leaves (value : Json) :
    (∀ path fields p, (flatRecord path fields value).get? p =
      (lastOf? (fun leaf => if joinKeys path leaf.1 = p then some (leafValue leaf.2) else none)
        value.leaves).or (fields.get? p)) ∧
    (value.IsOrdered → value.HasPlainKeys →
      (value.leaves.map fun leaf => joinKeys "" leaf.1).Nodup ∧
      ∀ fields,
        (∀ leaf ∈ value.leaves,
          (flatRecord "" fields value).get? (joinKeys "" leaf.1) = some (leafValue leaf.2)) ∧
        (flatRecord "" fields value).size = value.leaves.length +
          (fields.keys.filter (· ∉ value.leaves.map fun leaf => joinKeys "" leaf.1)).length) := by
  constructor
  · intro path fields p
    rw [flatRecord_eq_foldl, Dict.get?_foldl_insert_eq_or, leafEntries, lastOf?, lastOf?,
      List.filterMap_map]
    rfl
  · intro hordered hplain
    have hpaths : (leafEntries "" value).map (·.1) =
        value.leaves.map fun leaf => joinKeys "" leaf.1 := List.map_map
    have hdistinct : (value.leaves.map fun leaf => joinKeys "" leaf.1).Nodup := by
      have hkeys := Json.nodup_leaves hordered
      refine List.Nodup.map_on (fun leaf hleaf other hother hpath => ?_) (hkeys.of_map _)
      have hsame := joinKeys_injective (hplain leaf hleaf) (hplain other hother) hpath
      exact List.inj_on_of_nodup_map hkeys hleaf hother hsame
    refine ⟨hdistinct, fun fields => ⟨fun leaf hleaf => ?_, ?_⟩⟩
    · have hentry : (joinKeys "" leaf.1, leafValue leaf.2) ∈ leafEntries "" value :=
        List.mem_map.2 ⟨leaf, hleaf, rfl⟩
      rw [flatRecord_eq_foldl]
      exact Dict.get?_foldl_insert_of_alone hentry (fun other hother =>
        List.inj_on_of_nodup_map (hpaths ▸ hdistinct) hother hentry) fields
    · have hperm := Dict.perm_keys_foldl_insert (hpaths ▸ hdistinct) fields
      rw [← flatRecord_eq_foldl, hpaths] at hperm
      have hlength := hperm.length_eq
      rwa [Dict.keys, List.length_map, List.length_append, List.length_map] at hlength

/-- Three leaves in two levels, put into a flat record that has another field and one of theirs.

**Proof sketch.** That the fields are in order and the keys plain is checked. What the flat record
holds at the leaves, at another path and in number is the theorem. -/
theorem flatRecord_holds_leaves_nested :
    let value : Json := .object
      [("Name", .string "Acme"), ("Owner", .object [("Active", .bool true), ("Title", .null)])]
    let fields : Dict Value := .ofList [("Name", .text "Old"), ("Tier", .text "Gold")]
    value.IsOrdered ∧ value.HasPlainKeys ∧
      (flatRecord "" fields value).get? "Name" = some (.text "Acme") ∧
      (flatRecord "" fields value).get? "Owner.Active" = some (.truth true) ∧
      (flatRecord "" fields value).get? "Tier" = some (.text "Gold") ∧
      (flatRecord "" fields value).size = 4 := by
  intro value fields
  have hordered : value.IsOrdered := by
    have houter : [("Name", Json.string "Acme"),
        ("Owner", .object [("Active", .bool true), ("Title", .null)])].Pairwise (·.1 < ·.1) :=
      List.pairwise_pair.2 (by decide)
    have hinner : [("Active", Json.bool true), ("Title", .null)].Pairwise (·.1 < ·.1) :=
      List.pairwise_pair.2 (by decide)
    exact ⟨houter, trivial, ⟨hinner, trivial, trivial, trivial⟩, trivial⟩
  have hplain : value.HasPlainKeys := by decide
  obtain ⟨hholds, hplainly⟩ := flatRecord_holds_leaves value
  obtain ⟨-, hleaves⟩ := hplainly hordered hplain
  obtain ⟨hheld, hsize⟩ := hleaves fields
  refine ⟨hordered, hplain, hheld (["Name"], .string "Acme") List.mem_cons_self, ?_, ?_, ?_⟩
  · exact hheld (["Owner", "Active"], .bool true) (List.mem_cons_of_mem _ List.mem_cons_self)
  · exact (hholds "" fields "Tier").trans (by decide +kernel)
  · exact hsize.trans (by decide +kernel)

/-- An empty key at the beginning leaves no trace, and the later leaf takes the place of the earlier
one. -/
example :
    let value : Json := .object [("", .object [("a", .bool false)]), ("a", .bool true)]
    flatRecord "" ∅ value = .ofList [("a", .truth true)] := by
  decide +kernel

end Targeting
