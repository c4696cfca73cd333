import Mathlib.Tactic.Lemma
import Mathlib.Tactic.SplitIfs
import Targeting.Settings.Sources

/-!
# What a layer writes at a key

A layer is a list of writes: values that are laid over the parts at some paths, one after the other.
At a single key it comes to a list of writes too, those whose paths lead there and the entries of
the tables that are laid over what is above the key. As long as nothing but tables is laid over what
is above the key, the part at the key depends on these writes and on what stood there before, and on
nothing else.

Writes cover what was there, with two exceptions: a table leaves keys of a table that it does not
have, and an item of a list leaves the other items.

## Main definitions

* `Targeting.Setting.at?` — the part of a setting at keys.
* `Targeting.Layer.along` — what a layer writes there.
* `Targeting.Layer.onto` — writes over what stood there, if anything did.
* `Targeting.Setting.Covers` — how much of what stood there shows after writes.

## Main results

* `Targeting.Layer.bind_at?_onto` — a part after a layer, from its writes and what stood there.
* `Targeting.Layer.onto_cases` — writes cover what stood there.
-/

set_option autoImplicit false

namespace Targeting

namespace Setting

/-- The part of a setting at keys, each within the part before. -/
def at? : List String → Setting → Option Setting
  | [], setting => some setting
  | key :: keys, setting => (Dict.find? key setting.entries).bind (at? keys)

/-- Whether a setting is a table. -/
def IsTable (setting : Setting) : Prop := ∃ entries, setting = table entries

instance : DecidablePred IsTable
  | table entries => .isTrue ⟨entries, rfl⟩
  | absent | text _ | truth _ | int _ | real _ | list _ => .isFalse fun ⟨_, h⟩ => nomatch h

/-- The keys of a setting, if it is a table. -/
def keys (setting : Setting) : List String := setting.entries.map (·.1)

/-! ## Tables over tables -/

/-- The part at a key after entries are laid over those of a table. -/
lemma find?_mergeEntries (key : String) (below entries : List (String × Setting)) :
    Dict.find? key (mergeEntries below entries) =
      (entries.filter (·.1 = key)).foldl
        (fun given entry => some (merge (given.getD absent) entry.2)) (Dict.find? key below) := by
  induction entries generalizing below with
  | nil => rfl
  | cons entry entries ih =>
    obtain ⟨name, value⟩ := entry
    rw [mergeEntries, ih, Dict.find?_place]
    by_cases hkey : name = key
    · subst hkey
      simp
    · rw [if_neg (Ne.symm hkey), List.filter_cons_of_neg (by simpa using hkey)]

end Setting

namespace Layer

/-- Writes over what stood there, if anything did. -/
def onto (layer : Layer) (given : Option Setting) : Option Setting :=
  layer.foldl (fun given write => some (Setting.update write.2 write.1 (given.getD .absent))) given

/-- What one write comes to at a key. -/
def writesAt (key : String) : List Step × Setting → Layer
  | (.key name :: path, value) => if name = key then [(path, value)] else []
  | ([], .table entries) => (entries.filter (·.1 = key)).map fun entry => ([], entry.2)
  | _ => []

/-- What a layer writes at a key. -/
def within (layer : Layer) (key : String) : Layer := layer.flatMap (writesAt key)

/-- What a layer writes at keys, each within the part before. -/
def along : Layer → List String → Layer
  | layer, [] => layer
  | layer, key :: keys => (layer.within key).along keys

/-- Whether a layer writes nothing but tables and parts of tables. -/
def WritesTables (layer : Layer) : Prop :=
  ∀ write ∈ layer, (Setting.update write.2 write.1 .absent).IsTable

/-- Whether a layer writes nothing but tables above the last one of keys. -/
def WritesTablesAbove : Layer → List String → Prop
  | _, [] => True
  | layer, key :: keys => layer.WritesTables ∧ (layer.within key).WritesTablesAbove keys

/-- The part at a key after one write of a table or of a part of one.

**Proof sketch.** By cases on the path. A whole table is merged entry by entry, by
`Targeting.Setting.find?_mergeEntries`. A path that begins with a key writes below this key and
nowhere else. A path that begins with a place in a list would not leave a table. -/
lemma find?_update {write : List Step × Setting}
    (h : (Setting.update write.2 write.1 .absent).IsTable) (below : Setting) (key : String) :
    Dict.find? key (Setting.update write.2 write.1 below).entries =
      onto (writesAt key write) (Dict.find? key below.entries) := by
  obtain ⟨path, value⟩ := write
  obtain ⟨entries, h⟩ := h
  match path with
  | [] =>
    cases value with
    | table entries =>
      rw [writesAt, onto, List.foldl_map]
      exact Setting.find?_mergeEntries key below.entries entries
    | _ => cases h
  | .key name :: path =>
    rw [Setting.find?_update_key, writesAt]
    by_cases hkey : name = key
    · subst hkey
      rw [if_pos rfl, if_pos rfl]
      rfl
    · rw [if_neg (Ne.symm hkey), if_neg hkey]
      rfl
  | .item place :: path => cases h

/-- The part at a key after a layer of tables and parts of tables.

**Proof sketch.** Induction on the writes. What the first one leaves at the key is
`Targeting.Layer.find?_update`, and the others are written over that. -/
lemma bind_find?_onto {layer : Layer} (h : layer.WritesTables) (given : Option Setting)
    (key : String) :
    (layer.onto given).bind (Dict.find? key ·.entries) =
      (layer.within key).onto (given.bind (Dict.find? key ·.entries)) := by
  induction layer generalizing given with
  | nil => rfl
  | cons write layer ih =>
    obtain ⟨hwrite, hlayer⟩ := List.forall_mem_cons.1 h
    have hgiven : Dict.find? key (given.getD .absent).entries =
        given.bind (Dict.find? key ·.entries) := by
      cases given <;> rfl
    have hfirst := find?_update hwrite (given.getD .absent) key
    rw [hgiven] at hfirst
    have hrest := ih hlayer (some (Setting.update write.2 write.1 (given.getD .absent)))
    rw [Option.bind_some, hfirst] at hrest
    rw [within, List.flatMap_cons, onto, onto, List.foldl_append]
    exact hrest

/-- **The part at keys after a layer** depends on what the layer writes there and on what stood
there, if nothing but tables is written above. -/
theorem bind_at?_onto {keys : List String} {layer : Layer} (h : layer.WritesTablesAbove keys)
    (given : Option Setting) :
    (layer.onto given).bind (Setting.at? keys) =
      (layer.along keys).onto (given.bind (Setting.at? keys)) := by
  induction keys generalizing layer given with
  | nil => simp [Setting.at?, along]
  | cons key keys ih =>
    obtain ⟨htables, habove⟩ := h
    have hpart := ih habove (given.bind (Dict.find? key ·.entries))
    rw [← bind_find?_onto htables, Option.bind_assoc, Option.bind_assoc] at hpart
    exact hpart

end Layer

/-! ## What writes cover -/

namespace Setting

/-- How much of what stood at a place shows after writes: `setting` is what they leave there, and
`alone` what they leave where nothing stood. They are the same, or both are lists, or both are
tables of which the second one has more keys, but only those that stood there. -/
def Covers (below alone setting : Setting) : Prop :=
  alone = setting ∨ (∃ items others, alone = list items ∧ setting = list others) ∨
    alone.IsTable ∧ setting.IsTable ∧ alone.keys ⊆ setting.keys ∧
      setting.keys ⊆ alone.keys ++ below.keys

/-- The keys after writes are those that the writes leave anyway, and some that stood there. -/
lemma Covers.keys {below alone setting : Setting} (h : Covers below alone setting) :
    alone.keys ⊆ setting.keys ∧ setting.keys ⊆ alone.keys ++ below.keys := by
  rcases h with rfl | ⟨items, others, rfl, rfl⟩ | ⟨-, -, hkeys⟩
  · exact ⟨List.Subset.refl _, List.subset_append_left _ _⟩
  · exact ⟨List.Subset.refl _, List.nil_subset _⟩
  · exact hkeys

/-- The keys of entries after one more is placed among them. -/
lemma mem_keys_place {key name : String} {value : Setting} {entries : List (String × Setting)} :
    name ∈ (Dict.place key value entries).map (·.1) ↔ name = key ∨ name ∈ entries.map (·.1) := by
  induction entries with
  | nil => simp [Dict.place]
  | cons entry entries ih =>
    obtain ⟨first, old⟩ := entry
    rw [Dict.place]
    split_ifs with hless hsame
    · simp
    · simp [hsame]
    · rw [List.map_cons, List.mem_cons, ih, List.map_cons, List.mem_cons, or_left_comm]

/-- The keys of a table over another one are those of both. -/
lemma mem_keys_mergeEntries {name : String} {below entries : List (String × Setting)} :
    name ∈ (mergeEntries below entries).map (·.1) ↔
      name ∈ below.map (·.1) ∨ name ∈ entries.map (·.1) := by
  induction entries generalizing below with
  | nil => simp [mergeEntries]
  | cons entry entries ih =>
    rw [mergeEntries, ih, mem_keys_place, List.map_cons, List.mem_cons, or_assoc, or_left_comm]

/-- One more write covers what the writes before it have left.

**Proof sketch.** By cases on the path. A table adds its keys on both sides, and a path that begins
with a key adds this one, so what covered before still does. Anything else that is written whole is
the same on both sides, and a path into a list leaves a list on both. -/
lemma covers_update {below alone setting : Setting} (value : Setting) (path : List Step)
    (hkeys : alone.keys ⊆ setting.keys ∧ setting.keys ⊆ alone.keys ++ below.keys) :
    Covers below (update value path alone) (update value path setting) := by
  obtain ⟨hmore, hless⟩ := hkeys
  -- the keys that are written are added on both sides
  have htables : ∀ {left right : Setting} (added : String → Prop), left.IsTable → right.IsTable →
      (∀ name, name ∈ left.keys ↔ name ∈ alone.keys ∨ added name) →
      (∀ name, name ∈ right.keys ↔ name ∈ setting.keys ∨ added name) →
      Covers below left right := by
    intro left right added hleft hright hkeysLeft hkeysRight
    refine .inr (.inr ⟨hleft, hright, fun name hname => ?_, fun name hname => ?_⟩)
    · exact (hkeysRight name).2 (((hkeysLeft name).1 hname).imp_left fun h => hmore h)
    · rw [List.mem_append, hkeysLeft]
      rcases (hkeysRight name).1 hname with hname | hname
      · exact (List.mem_append.1 (hless hname)).imp_left .inl
      · exact .inl (.inr hname)
  match path with
  | [] =>
    cases value with
    | table entries =>
      exact htables (· ∈ entries.map (·.1)) ⟨_, rfl⟩ ⟨_, rfl⟩ (fun _ => mem_keys_mergeEntries)
        (fun _ => mem_keys_mergeEntries)
    | _ => exact .inl rfl
  | .key key :: path =>
    have hplace : ∀ {name : String} {part : Setting} {entries : List (String × Setting)},
        name ∈ (Dict.place key part entries).map (·.1) ↔ name ∈ entries.map (·.1) ∨ name = key :=
      mem_keys_place.trans or_comm
    exact htables (· = key) ⟨_, rfl⟩ ⟨_, rfl⟩ (fun _ => hplace) (fun _ => hplace)
  | .item place :: path => exact .inr (.inl ⟨_, _, rfl, rfl⟩)

/-- A write leaves the entries of a table in increasing order of the keys. -/
lemma sorted_entries_update (value : Setting) (path : List Step) {below : Setting}
    (h : below.entries.Pairwise fun a b => a.1 < b.1) :
    (update value path below).entries.Pairwise fun a b => a.1 < b.1 := by
  have hmerge : ∀ entries below : List (String × Setting),
      below.Pairwise (fun a b => a.1 < b.1) →
      (mergeEntries below entries).Pairwise fun a b => a.1 < b.1 := by
    intro entries
    induction entries with
    | nil => exact fun _ h => h
    | cons entry entries ih => exact fun below h => ih _ (Dict.place_sorted h)
  match path with
  | [] =>
    cases value with
    | table entries => exact hmerge entries _ h
    | _ => exact .nil
  | .key key :: path => exact Dict.place_sorted h
  | .item place :: path => exact .nil

end Setting

namespace Layer

/-- Writes leave the entries of a table in increasing order of the keys. -/
lemma sorted_entries_onto (layer : Layer) {given : Option Setting}
    (h : (given.getD .absent).entries.Pairwise fun a b => a.1 < b.1) :
    ((layer.onto given).getD .absent).entries.Pairwise fun a b => a.1 < b.1 := by
  induction layer generalizing given with
  | nil => exact h
  | cons write layer ih => exact ih (Setting.sorted_entries_update write.2 write.1 h)

/-- **Writes cover what stood there.** Either there are no writes, or they leave something, which
covers what stood there.

**Proof sketch.** The first write covers what stood there, as nothing was written before. By
induction on the writes behind it, each leaves what covers, by `Targeting.Setting.covers_update`. -/
theorem onto_cases (layer : Layer) (given : Option Setting) :
    (layer.onto given = given ∧ layer.onto none = none) ∨
      ∃ alone setting, layer.onto none = some alone ∧ layer.onto given = some setting ∧
        Setting.Covers (given.getD .absent) alone setting := by
  -- once there is a write, each further one covers what the others have left
  have hmore : ∀ (layer : Layer) (below alone setting : Setting),
      Setting.Covers below alone setting →
      ∃ alone' setting', layer.onto (some alone) = some alone' ∧
        layer.onto (some setting) = some setting' ∧ Setting.Covers below alone' setting' := by
    intro layer below
    induction layer with
    | nil => exact fun alone setting h => ⟨alone, setting, rfl, rfl, h⟩
    | cons write layer ih =>
      exact fun alone setting h => ih _ _ (Setting.covers_update write.2 write.1 h.keys)
  cases layer with
  | nil => exact .inl ⟨rfl, rfl⟩
  | cons write layer =>
    have hfirst : Setting.Covers (given.getD .absent)
        (Setting.update write.2 write.1 .absent)
        (Setting.update write.2 write.1 (given.getD .absent)) :=
      Setting.covers_update write.2 write.1 ⟨List.nil_subset _, List.Subset.refl _⟩
    exact .inr (hmore layer _ _ _ hfirst)

end Layer

end Targeting
