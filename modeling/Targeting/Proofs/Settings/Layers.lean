import Mathlib.Data.List.Perm.Basic
import Mathlib.Tactic.MkIffOfInductiveProp
import Targeting.Proofs.Failure
import Targeting.Proofs.Settings.Writes
import Targeting.Settings.Application

/-!
# Settings from layers

Each setting of an application is what the highest layer gives that gives anything for it, be the
layer a file, the variables or the names that were asked for. Layers meet at single settings, not at
the tables `engine` and `observability` as a whole: what one layer leaves out of a table, a lower
one may give. So the kind of a value matters only where no higher layer covers it.

This needs that the layers give nothing but tables for the two names. A single setting may be a
table too: the name of a field policy is also read from the only key of a table. There the tables of
several layers are merged like any others, so the keys of lower ones show.

## Main definitions

* `Targeting.Layer.gives?`, `Targeting.Layer.given` — what layers give at keys.
* `Targeting.Layer.GivesTables` — a layer gives nothing but tables for a name.
* `Targeting.Layer.CoversTables` — no key of a table shows from under another table.
* `Targeting.Layer.Sets` — what the highest layer gives is a value of a kind.
* `Targeting.Application.IsSetBy` — the settings are those of the highest layers.

## Main results

* `Targeting.Layer.at?_together` — the part at keys of all layers, layer by layer.
* `Targeting.Layer.given_cases` — the highest layer covers the others.
* `Targeting.Application.load_eq_ok_iff` — settings are loaded exactly as the highest layers set
  them.
-/

set_option autoImplicit false

namespace Targeting

/-! ## Keys -/

/-- The steps of a name begin with a key. -/
lemma exists_of_nameSteps? {text : List Char} {steps : List Step}
    (h : nameSteps? text = some steps) : ∃ name path, steps = .key name :: path := by
  unfold nameSteps? at h
  split at h
  · cases h
  · split_ifs at h
    obtain ⟨path, -, rfl⟩ := Option.map_eq_some_iff.1 h
    exact ⟨_, path, rfl⟩

/-- The way to a setting begins with a key. -/
lemma exists_keyPath (key : String) : ∃ name path, keyPath key = .key name :: path := by
  unfold keyPath
  cases hparts : key.toList.splitOn '.' with
  | nil => exact absurd hparts (List.splitOn_ne_nil _ _)
  | cons part parts =>
    cases hsteps : (part :: parts).mapM nameSteps? with
    | none => exact ⟨key, [], rfl⟩
    | some steps =>
      rw [List.mapM_cons] at hsteps
      obtain ⟨first, hfirst, hsteps⟩ := Option.bind_eq_some_iff.1 hsteps
      obtain ⟨others, -, hsteps⟩ := Option.bind_eq_some_iff.1 hsteps
      obtain rfl := Option.some.inj hsteps
      obtain ⟨name, path, rfl⟩ := exists_of_nameSteps? hfirst
      exact ⟨name, path ++ others.flatten, rfl⟩

namespace Layer

/-! ## What layers give -/

/-- What a layer gives at keys, if it gives anything there. -/
def gives? (layer : Layer) (keys : List String) : Option Setting :=
  ((Setting.table []).overlay layer).at? keys

/-- What layers give at keys, in their order. -/
def given (layers : List Layer) (keys : List String) : List Setting :=
  layers.filterMap (·.gives? keys)

/-- Whether nothing that a layer writes gives anything but a table for a name. -/
def GivesTables (layer : Layer) (name : String) : Prop :=
  ∀ write ∈ layer, ∀ setting ∈ gives? [write] [name], setting.IsTable

instance (layer : Layer) (name : String) : Decidable (layer.GivesTables name) :=
  inferInstanceAs (Decidable (∀ write ∈ layer, ∀ setting ∈ gives? [write] [name], setting.IsTable))

/-- Whether a table, where it is the first thing that layers give at keys, has all keys of the other
tables that they give there. -/
def CoversTables (layers : List Layer) (keys : List String) : Prop :=
  ∀ first ∈ (given layers keys).head?, first.IsTable →
    ∀ other ∈ given layers keys, other.keys ⊆ first.keys

instance (layers : List Layer) (keys : List String) : Decidable (CoversTables layers keys) :=
  inferInstanceAs (Decidable (∀ first ∈ (given layers keys).head?, first.IsTable →
    ∀ other ∈ given layers keys, other.keys ⊆ first.keys))

/-- Whether the first of the layers that gives anything at keys gives a value of a kind; where none
does, it is a default. -/
def Sets {α : Type} (layers : List Layer) (keys : List String) (kind : Setting → Option α)
    (default value : α) : Prop :=
  (given layers keys).head?.elim (some default) kind = some value

instance {α : Type} [DecidableEq α] (layers : List Layer) (keys : List String)
    (kind : Setting → Option α) (default value : α) :
    Decidable (Sets layers keys kind default value) :=
  inferInstanceAs (Decidable ((given layers keys).head?.elim (some default) kind = some value))

/-! ## Layers of entries -/

/-- A layer of entries writes nothing but entries. -/
lemma writesTables_ofEntries (entries : List (String × Setting)) :
    (ofEntries entries).WritesTables := by
  intro write hwrite
  obtain ⟨entry, -, rfl⟩ := List.mem_map.1 hwrite
  obtain ⟨name, path, hpath⟩ := exists_keyPath entry.1
  dsimp only
  rw [hpath]
  exact ⟨_, rfl⟩

/-- What a layer of entries writes at a name are tables and parts of tables, if it gives nothing but
tables for the name.

**Proof sketch.** What is written at the name comes from an entry whose key begins with it. What the
layer gives for the name by this entry is what the rest of the path writes there, so that is a
table. -/
lemma writesTables_within {entries : List (String × Setting)} {name : String}
    (h : (ofEntries entries).GivesTables name) :
    ((ofEntries entries).within name).WritesTables := by
  intro write hwrite
  obtain ⟨source, hsource, hwrite⟩ := List.mem_flatMap.1 hwrite
  obtain ⟨entry, -, rfl⟩ := List.mem_map.1 hsource
  obtain ⟨key, path, hpath⟩ := exists_keyPath entry.1
  dsimp only at hsource hwrite
  rw [hpath] at hsource hwrite
  rw [writesAt] at hwrite
  split_ifs at hwrite with hkey
  · obtain rfl := List.mem_singleton.1 hwrite
    subst hkey
    refine h _ hsource _ ?_
    change (Dict.find? key (Setting.update entry.2 (.key key :: path) (.table [])).entries).bind
      (Setting.at? []) = _
    rw [Setting.find?_update_key, if_pos rfl]
    rfl
  · cases hwrite

/-- The layer of a file is one of entries. -/
lemma exists_ofEntries_of_fileLayer {sources : Sources} {arrangement : Arrangement} {tier : Tier}
    {name : String} {layer : Layer} (h : sources.fileLayer arrangement tier name = .ok layer) :
    ∃ entries, layer = ofEntries entries := by
  unfold Sources.fileLayer at h
  cases hfile : sources.file? name with
  | none =>
    rw [hfile] at h
    obtain rfl := Except.ok.inj h
    exact ⟨[], rfl⟩
  | some text =>
    rw [hfile, Option.elim_some, ofFile] at h
    cases hread : Toml.read? (String.ofList (Toml.dropMark text.toList)) with
    | none => rw [hread] at h; cases h
    | some entries =>
      rw [hread] at h
      obtain rfl := Except.ok.inj h
      exact ⟨_, rfl⟩

/-! ## Layers over each other -/

/-- Writes over something are those of a layer over it. -/
lemma onto_some (layer : Layer) (below : Setting) :
    layer.onto (some below) = some (below.overlay layer) := by
  induction layer generalizing below with
  | nil => rfl
  | cons write layer ih => exact ih _

/-- What a layer gives at keys is what it writes there. -/
lemma gives?_eq_onto {layer : Layer} {key : String} {keys : List String}
    (h : layer.WritesTablesAbove (key :: keys)) :
    layer.gives? (key :: keys) = (layer.along (key :: keys)).onto none := by
  have hpart := bind_at?_onto h (some (.table []))
  rw [onto_some] at hpart
  exact hpart

/-- The part at keys under layers, the highest one first: each layer writes over the part under the
layers behind it. -/
def under (layers : List Layer) (keys : List String) : Option Setting :=
  layers.foldr (fun layer part => (along layer keys).onto part) none

/-- All layers together, the highest one first. -/
def together (layers : List Layer) : Setting :=
  layers.foldr (fun layer below => Setting.overlay below layer) (.table [])

/-- The part at keys of all layers together. -/
theorem at?_together {key : String} {keys : List String} {layers : List Layer}
    (h : ∀ layer ∈ layers, layer.WritesTablesAbove (key :: keys)) :
    (together layers).at? (key :: keys) = under layers (key :: keys) := by
  induction layers with
  | nil => rfl
  | cons layer layers ih =>
    obtain ⟨hlayer, hlayers⟩ := List.forall_mem_cons.1 h
    have hpart := bind_at?_onto hlayer (some (together layers))
    rw [onto_some, Option.bind_some, Option.bind_some, ih hlayers] at hpart
    exact hpart

/-- The entries of a part under layers are in increasing order of their keys. -/
lemma sorted_entries_under (layers : List Layer) (keys : List String) :
    ((under layers keys).getD .absent).entries.Pairwise fun a b => a.1 < b.1 := by
  induction layers with
  | nil => exact .nil
  | cons layer layers ih => exact sorted_entries_onto _ ih

/-- Where a layer gives anything, it is with entries in increasing order of their keys. -/
lemma sorted_entries_of_mem_given {key : String} {keys : List String} {layers : List Layer}
    (h : ∀ layer ∈ layers, layer.WritesTablesAbove (key :: keys)) {alone : Setting}
    (hmem : alone ∈ given layers (key :: keys)) :
    alone.entries.Pairwise fun a b => a.1 < b.1 := by
  obtain ⟨layer, hlayer, hgives⟩ := List.mem_filterMap.1 hmem
  have hsorted : (((layer.along (key :: keys)).onto none).getD .absent).entries.Pairwise
      fun a b => a.1 < b.1 :=
    sorted_entries_onto _ .nil
  rwa [← gives?_eq_onto (h layer hlayer), hgives] at hsorted

/-- Tables and parts of tables over a table, or over nothing, are a table.

**Proof sketch.** Induction on the writes. Each leaves a table: it merges one into what is there, or
writes below a key of it. -/
lemma isTable_of_onto {layer : Layer} (h : layer.WritesTables) {given : Option Setting}
    (hgiven : ∀ part, given = some part → part.IsTable) :
    ∀ part, layer.onto given = some part → part.IsTable := by
  induction layer generalizing given with
  | nil => exact hgiven
  | cons write layer ih =>
    obtain ⟨hwrite, hlayer⟩ := List.forall_mem_cons.1 h
    refine ih hlayer fun part hpart => ?_
    obtain rfl := Option.some.inj hpart
    obtain ⟨path, value⟩ := write
    obtain ⟨entries, hentries⟩ := hwrite
    match path with
    | [] =>
      cases value with
      | table entries => exact ⟨_, rfl⟩
      | _ => cases hentries
    | .key key :: path => exact ⟨_, rfl⟩
    | .item place :: path => cases hentries

/-- The part at a name under layers is a table if they give nothing but tables for the name. -/
lemma isTable_of_under {layers : List Layer} {name : String}
    (h : ∀ layer ∈ layers, (layer.within name).WritesTables) :
    ∀ part, under layers [name] = some part → part.IsTable := by
  induction layers with
  | nil => exact fun part hpart => nomatch hpart
  | cons layer layers ih =>
    obtain ⟨hlayer, hlayers⟩ := List.forall_mem_cons.1 h
    exact isTable_of_onto hlayer (ih hlayers)

/-- **The highest layer covers the others.** Where layers give anything at keys, what the first of
them gives covers a part whose keys are keys of what the others give.

**Proof sketch.** Induction on the layers, the highest one first. A layer that gives nothing at the
keys leaves what stands under it as it was. If it gives something, that covers what is under it, by
`Targeting.Layer.onto_cases`, and a key of what is covered is a key of what the next layer gives, or
one of those that the induction hypothesis accounts for. -/
theorem given_cases {key : String} {keys : List String} {layers : List Layer}
    (h : ∀ layer ∈ layers, layer.WritesTablesAbove (key :: keys)) :
    (given layers (key :: keys) = [] ∧ under layers (key :: keys) = none) ∨
      ∃ alone others below setting, given layers (key :: keys) = alone :: others ∧
        under layers (key :: keys) = some setting ∧ Setting.Covers below alone setting ∧
        ∀ name ∈ below.keys, ∃ other ∈ others, name ∈ other.keys := by
  induction layers with
  | nil => exact .inl ⟨rfl, rfl⟩
  | cons layer layers ih =>
    obtain ⟨hlayer, hlayers⟩ := List.forall_mem_cons.1 h
    have hgives := gives?_eq_onto hlayer
    have hunder : under (layer :: layers) (key :: keys) =
      (layer.along (key :: keys)).onto (under layers (key :: keys)) := rfl
    -- the highest layer gives nothing, and then the others decide, or it covers what they give
    rcases (layer.along (key :: keys)).onto_cases (under layers (key :: keys)) with
      ⟨hsame, hnone⟩ | ⟨alone, setting, halone, hsetting, hcovers⟩
    · have hgiven : given (layer :: layers) (key :: keys) = given layers (key :: keys) :=
        List.filterMap_cons_none (hgives.trans hnone)
      rw [hgiven, hunder, hsame]
      exact ih hlayers
    · have hgiven : given (layer :: layers) (key :: keys) = alone :: given layers (key :: keys) :=
        List.filterMap_cons_some (hgives.trans halone)
      refine .inr ⟨alone, _, _, setting, hgiven, hunder.trans hsetting, hcovers, ?_⟩
      rcases ih hlayers with ⟨-, hnone⟩ |
        ⟨first, others, below, lower, hfirst, hlower, hless, hkeys⟩
      · rw [hnone]
        exact fun name hname => absurd hname List.not_mem_nil
      · rw [hlower, hfirst]
        intro name hname
        rcases List.mem_append.1 (hless.keys.2 hname) with hname | hname
        · exact ⟨first, List.mem_cons_self, hname⟩
        · obtain ⟨other, hother, hname⟩ := hkeys name hname
          exact ⟨other, List.mem_cons_of_mem _ hother, hname⟩

end Layer

/-! ## Kinds -/

namespace Setting

variable {below alone setting : Setting}

/-- Whether no list and no table is of a kind. -/
def IsPlain {α : Type} (kind : Setting → Option α) : Prop :=
  (∀ items, kind (list items) = none) ∧ ∀ entries, kind (table entries) = none

/-- Texts are neither lists nor tables. -/
lemma isPlain_text? : IsPlain text? := ⟨fun _ => rfl, fun _ => rfl⟩

/-- Truth values are neither lists nor tables. -/
lemma isPlain_truth? : IsPlain truth? := ⟨fun _ => rfl, fun _ => rfl⟩

/-- Natural numbers are neither lists nor tables. -/
lemma isPlain_natural? (bits : Nat) : IsPlain (natural? bits) := ⟨fun _ => rfl, fun _ => rfl⟩

/-- A plain kind does not show what is covered. -/
lemma Covers.kind_eq {α : Type} {kind : Setting → Option α} (h : Covers below alone setting)
    (hplain : IsPlain kind) : kind setting = kind alone := by
  rcases h with rfl | ⟨items, others, rfl, rfl⟩ | ⟨⟨entries, rfl⟩, ⟨others, rfl⟩, -⟩
  · rfl
  · rw [hplain.1, hplain.1]
  · rw [hplain.2, hplain.2]

/-- Tables with the same keys are the same policy. -/
lemma policy?_eq_of_keys {entries others : List (String × Setting)}
    (h : others.map (·.1) = entries.map (·.1)) :
    policy? (table others) = policy? (table entries) := by
  match entries, others, h with
  | [], [], _ => rfl
  | [(key, value)], [(key', value')], h =>
    obtain rfl : key' = key := by simpa using h
    rfl
  | _ :: _ :: _, _ :: _ :: _, _ => rfl

/-- A policy does not show what is covered, unless keys of it show.

**Proof sketch.** Either both are the same, or both are lists, which name no policy, or both are
tables. Tables have the same keys then: what shows from below shows alone too, by assumption. Keys
are in increasing order, so they are equal as lists, and a policy depends on the keys only. -/
lemma Covers.policy?_eq (h : Covers below alone setting)
    (halone : alone.entries.Pairwise fun a b => a.1 < b.1)
    (hsetting : setting.entries.Pairwise fun a b => a.1 < b.1)
    (hkeys : alone.IsTable → below.keys ⊆ alone.keys) : setting.policy? = alone.policy? := by
  rcases h with rfl | ⟨items, others, rfl, rfl⟩ | ⟨⟨entries, rfl⟩, ⟨others, rfl⟩, hmore, hless⟩
  · rfl
  · rfl
  · have hincreasing : ∀ {entries : List (String × Setting)},
        (entries.Pairwise fun a b => a.1 < b.1) → (entries.map (·.1)).Pairwise (· < ·) :=
      fun h => List.pairwise_map.2 h
    have hnodup : ∀ {names : List String}, names.Pairwise (· < ·) → names.Nodup :=
      fun h => h.imp fun hlt => by rintro rfl; exact String.lt_irrefl _ hlt
    have hmem : ∀ name, name ∈ others.map (·.1) ↔ name ∈ entries.map (·.1) := by
      refine fun name => ⟨fun hname => ?_, fun hname => hmore hname⟩
      exact (List.mem_append.1 (hless hname)).elim id fun hname => hkeys ⟨entries, rfl⟩ hname
    -- increasing lists with the same members are equal
    have hperm := (List.perm_ext_iff_of_nodup (hnodup (hincreasing hsetting))
      (hnodup (hincreasing halone))).2 hmem
    exact policy?_eq_of_keys (hperm.eq_of_pairwise
      (fun _ _ _ _ hlt hgt => absurd (String.lt_trans hlt hgt) (String.lt_irrefl _))
      (hincreasing hsetting) (hincreasing halone))

end Setting

namespace Layer

section Sets

variable {key : String} {keys : List String} {layers : List Layer} {α : Type}
  {kind : Setting → Option α} {default value : α}

/-- What stands at keys under layers is a value of a kind exactly if the highest layer gives this
value, as long as the kind does not show what is covered. -/
lemma under_iff_sets_of_covers (h : ∀ layer ∈ layers, layer.WritesTablesAbove (key :: keys))
    (hkind : ∀ alone others below setting, given layers (key :: keys) = alone :: others →
      under layers (key :: keys) = some setting → Setting.Covers below alone setting →
      (∀ name ∈ below.keys, ∃ other ∈ others, name ∈ other.keys) → kind setting = kind alone) :
    (under layers (key :: keys)).elim (some default) kind = some value ↔
      Sets layers (key :: keys) kind default value := by
  rw [Sets]
  rcases given_cases h with ⟨hgiven, hunder⟩ |
    ⟨alone, others, below, setting, hgiven, hunder, hcovers, hkeys⟩
  · rw [hgiven, hunder]
    rfl
  · have hsame := hkind alone others below setting hgiven hunder hcovers hkeys
    rw [hgiven, hunder, Option.elim_some, hsame]
    rfl

/-- A value of a plain kind is that of what the highest layer gives. -/
lemma under_iff_sets (h : ∀ layer ∈ layers, layer.WritesTablesAbove (key :: keys))
    (hplain : Setting.IsPlain kind) :
    (under layers (key :: keys)).elim (some default) kind = some value ↔
      Sets layers (key :: keys) kind default value :=
  under_iff_sets_of_covers h fun _ _ _ _ _ _ hcovers _ => hcovers.kind_eq hplain

/-- A policy is that of what the highest layer gives, if this is no table, or one that has all keys
of the tables that other layers give. -/
lemma under_iff_sets_policy {default value : FieldPolicy}
    (h : ∀ layer ∈ layers, layer.WritesTablesAbove (key :: keys))
    (hkeys : CoversTables layers (key :: keys)) :
    (under layers (key :: keys)).elim (some default) Setting.policy? = some value ↔
      Sets layers (key :: keys) Setting.policy? default value := by
  refine under_iff_sets_of_covers h
    fun alone others below setting hgiven hunder hcovers hbelow => ?_
  have halone := sorted_entries_of_mem_given h (hgiven ▸ List.mem_cons_self)
  have hsetting := sorted_entries_under layers (key :: keys)
  rw [hunder] at hsetting
  refine hcovers.policy?_eq halone hsetting fun htable name hname => ?_
  obtain ⟨other, hother, hname⟩ := hbelow name hname
  rw [CoversTables, hgiven] at hkeys
  exact hkeys alone rfl htable other (List.mem_cons_of_mem _ hother) hname

end Sets

end Layer

/-! ## The settings of an application -/

/-- An entry is read as a value exactly if it has the value as one of its kind. -/
lemma readEntry_eq_ok_iff {α : Type} {entries : Entries} {key : String}
    {kind : Setting → Option α} {default value : α} :
    readEntry entries key kind default = .ok value ↔
      (Dict.find? key entries).elim (some default) kind = some value := by
  unfold readEntry
  cases Dict.find? key entries with
  | none => simp
  | some setting =>
    dsimp only [Option.elim_some]
    cases kind setting <;> simp

/-- The part at a single key is the value of the entry. -/
lemma Setting.at?_singleton (key : String) (setting : Setting) :
    setting.at? [key] = Dict.find? key setting.entries := by
  rw [at?]
  cases Dict.find? key setting.entries <;> rfl

/-- The part at two keys is an entry of the part at the first one. -/
lemma Setting.find?_at? (setting : Setting) (key name : String) :
    Dict.find? name ((setting.at? [key]).getD .absent).entries = setting.at? [key, name] := by
  rw [at?, at?]
  cases Dict.find? key setting.entries with
  | none => rfl
  | some part => exact (part.at?_singleton name).symm

/-- A part that is a table, or missing, is read by its entries. -/
lemma readEntry_table {setting : Setting} {key : String} {keys : List String}
    (h : ∀ part, setting.at? [key] = some part → part.IsTable) :
    readEntry setting.entries key (Setting.fields? keys) [] =
      .ok ((setting.at? [key]).getD .absent).entries := by
  rw [readEntry_eq_ok_iff, ← Setting.at?_singleton]
  cases hpart : setting.at? [key] with
  | none => rfl
  | some part =>
    obtain ⟨entries, rfl⟩ := h part hpart
    rfl

/-- The settings of the engine in a table are read entry by entry. -/
lemma EngineSettings.ofEntries_eq_ok_iff {entries : Entries} {settings : EngineSettings} :
    ofEntries entries = .ok settings ↔
      readEntry entries "no_restriction_sentinel" Setting.text? ({} : EngineSettings).sentinel =
        .ok settings.sentinel ∧
      readEntry entries "missing_field_policy" Setting.policy? ({} : EngineSettings).policy =
        .ok settings.policy ∧
      readEntry entries "max_reference_depth" (Setting.natural? 64)
        ({} : EngineSettings).depthLimit = .ok settings.depthLimit ∧
      readEntry entries "builder_mode" Setting.truth? ({} : EngineSettings).builderMode =
        .ok settings.builderMode := by
  unfold ofEntries
  simp only [bind_eq_ok_iff]
  constructor
  · rintro ⟨sentinel, hsentinel, policy, hpolicy, limit, hlimit, mode, hmode, h⟩
    obtain rfl := Except.ok.inj h
    exact ⟨hsentinel, hpolicy, hlimit, hmode⟩
  · rintro ⟨hsentinel, hpolicy, hlimit, hmode⟩
    exact ⟨_, hsentinel, _, hpolicy, _, hlimit, _, hmode, rfl⟩

/-- The settings of the log in a table are read entry by entry. -/
lemma Logging.ofEntries_eq_ok_iff {entries : Entries} {logging : Logging} :
    ofEntries entries = .ok logging ↔
      readEntry entries "log_level" Setting.text? ({} : Logging).level = .ok logging.level ∧
      readEntry entries "json_logs" Setting.truth? ({} : Logging).asJson = .ok logging.asJson := by
  unfold ofEntries
  simp only [bind_eq_ok_iff]
  constructor
  · rintro ⟨level, hlevel, asJson, hasJson, h⟩
    obtain rfl := Except.ok.inj h
    exact ⟨hlevel, hasJson⟩
  · rintro ⟨hlevel, hasJson⟩
    exact ⟨_, hlevel, _, hasJson, rfl⟩

/-- The layers of an environment and a service with the files that were read, the highest one
first. -/
def Sources.ranked (sources : Sources) (environment service : String) (arrangement : Arrangement)
    (base forEnvironment forService : Layer) : List Layer :=
  [sources.variableLayer arrangement, forService, forEnvironment, base, named environment service]

namespace Application

/-- Whether the settings of an application are those that the highest of the layers give, the
highest layer first; where no layer gives anything, they have their built-in values. -/
@[mk_iff]
structure IsSetBy (layers : List Layer) (application : Application) : Prop where
  serviceName : Layer.Sets layers ["service_name"] Setting.text? "" application.serviceName
  environment : Layer.Sets layers ["environment"] Setting.text? "" application.environment
  sentinel : Layer.Sets layers ["engine", "no_restriction_sentinel"] Setting.text?
    ({} : EngineSettings).sentinel application.engine.sentinel
  policy : Layer.Sets layers ["engine", "missing_field_policy"] Setting.policy?
    ({} : EngineSettings).policy application.engine.policy
  depthLimit : Layer.Sets layers ["engine", "max_reference_depth"] (Setting.natural? 64)
    ({} : EngineSettings).depthLimit application.engine.depthLimit
  builderMode : Layer.Sets layers ["engine", "builder_mode"] Setting.truth?
    ({} : EngineSettings).builderMode application.engine.builderMode
  level : Layer.Sets layers ["observability", "log_level"] Setting.text?
    ({} : Logging).level application.logging.level
  asJson : Layer.Sets layers ["observability", "json_logs"] Setting.truth?
    ({} : Logging).asJson application.logging.asJson

instance (layers : List Layer) (application : Application) :
    Decidable (application.IsSetBy layers) :=
  decidable_of_iff' _ (isSetBy_iff layers application)

/-- The settings of an application are read part by part, from what stands at the keys.

**Proof sketch.** The two parts are tables or absent, so their entries are what stands at their
keys, by `Targeting.readEntry_table`. The application is then read in four independent steps. -/
lemma ofEntries_eq_ok_iff {setting : Setting} {application : Application}
    (hengine : ∀ part, setting.at? ["engine"] = some part → part.IsTable)
    (hlogging : ∀ part, setting.at? ["observability"] = some part → part.IsTable) :
    ofEntries setting.entries = .ok application ↔
      readEntry setting.entries "service_name" Setting.text? "" = .ok application.serviceName ∧
      readEntry setting.entries "environment" Setting.text? "" = .ok application.environment ∧
      EngineSettings.ofEntries ((setting.at? ["engine"]).getD .absent).entries =
        .ok application.engine ∧
      Logging.ofEntries ((setting.at? ["observability"]).getD .absent).entries =
        .ok application.logging := by
  unfold ofEntries
  rw [readEntry_table hengine, readEntry_table hlogging]
  simp only [bind_eq_ok_iff, Except.ok.injEq, exists_eq_left']
  constructor
  · rintro ⟨serviceName, hserviceName, environment, henvironment, engine, hengine, logging,
      hlogging, h⟩
    obtain rfl := Except.ok.inj h
    exact ⟨hserviceName, henvironment, hengine, hlogging⟩
  · rintro ⟨hserviceName, henvironment, hengine, hlogging⟩
    exact ⟨_, hserviceName, _, henvironment, _, hengine, _, hlogging, rfl⟩

/-- The settings that stand under layers are those that the highest layers give.

**Proof sketch.** Layers write tables at the top, since they are made of entries, and by `htables`
also at the keys of the engine and of the log. So what stands at a key is what
`Targeting.Layer.under` finds there, by `Targeting.Layer.at?_together`. Reading an entry from there
is the same as taking it from the highest layer that gives it: by `Targeting.Layer.under_iff_sets`
for all entries but the policy, and by `Targeting.Layer.under_iff_sets_policy` for that one, since
`hpolicy` rules out that a lower table shows through. -/
theorem ofEntries_together_iff {layers : List Layer} {application : Application}
    (hentries : ∀ layer ∈ layers, ∃ entries, layer = Layer.ofEntries entries)
    (htables : ∀ layer ∈ layers, layer.GivesTables "engine" ∧ layer.GivesTables "observability")
    (hpolicy : Layer.CoversTables layers ["engine", "missing_field_policy"]) :
    ofEntries (Layer.together layers).entries = .ok application ↔ application.IsSetBy layers := by
  have htop : ∀ layer ∈ layers, layer.WritesTables := by
    intro layer hlayer
    obtain ⟨entries, rfl⟩ := hentries layer hlayer
    exact Layer.writesTables_ofEntries entries
  have hengine : ∀ layer ∈ layers, (layer.within "engine").WritesTables := by
    intro layer hlayer
    obtain ⟨entries, rfl⟩ := hentries layer hlayer
    exact Layer.writesTables_within (htables _ hlayer).1
  have hlogging : ∀ layer ∈ layers, (layer.within "observability").WritesTables := by
    intro layer hlayer
    obtain ⟨entries, rfl⟩ := hentries layer hlayer
    exact Layer.writesTables_within (htables _ hlayer).2
  -- nothing but tables is written above a key, and above a key of the engine or of the log
  have habove : ∀ key, ∀ layer ∈ layers, layer.WritesTablesAbove [key] :=
    fun key layer hlayer => ⟨htop layer hlayer, trivial⟩
  have haboveEngine : ∀ key, ∀ layer ∈ layers, layer.WritesTablesAbove ["engine", key] :=
    fun key layer hlayer => ⟨htop layer hlayer, hengine layer hlayer, trivial⟩
  have haboveLogging : ∀ key, ∀ layer ∈ layers, layer.WritesTablesAbove ["observability", key] :=
    fun key layer hlayer => ⟨htop layer hlayer, hlogging layer hlayer, trivial⟩
  have hkey : ∀ key, Dict.find? key (Layer.together layers).entries = Layer.under layers [key] := by
    intro key
    rw [← Setting.at?_singleton, Layer.at?_together (habove key)]
  have hkeyEngine : ∀ key,
      Dict.find? key (((Layer.together layers).at? ["engine"]).getD .absent).entries =
        Layer.under layers ["engine", key] := by
    intro key
    rw [Setting.find?_at?, Layer.at?_together (haboveEngine key)]
  have hkeyLogging : ∀ key,
      Dict.find? key (((Layer.together layers).at? ["observability"]).getD .absent).entries =
        Layer.under layers ["observability", key] := by
    intro key
    rw [Setting.find?_at?, Layer.at?_together (haboveLogging key)]
  have htableEngine := Layer.isTable_of_under hengine
  have htableLogging := Layer.isTable_of_under hlogging
  rw [← Layer.at?_together (habove _)] at htableEngine htableLogging
  rw [ofEntries_eq_ok_iff htableEngine htableLogging, EngineSettings.ofEntries_eq_ok_iff,
    Logging.ofEntries_eq_ok_iff]
  simp only [readEntry_eq_ok_iff, hkey, hkeyEngine, hkeyLogging]
  rw [Layer.under_iff_sets (habove _) Setting.isPlain_text?,
    Layer.under_iff_sets (habove _) Setting.isPlain_text?,
    Layer.under_iff_sets (haboveEngine _) Setting.isPlain_text?,
    Layer.under_iff_sets_policy (haboveEngine _) hpolicy,
    Layer.under_iff_sets (haboveEngine _) (Setting.isPlain_natural? 64),
    Layer.under_iff_sets (haboveEngine _) Setting.isPlain_truth?,
    Layer.under_iff_sets (haboveLogging _) Setting.isPlain_text?,
    Layer.under_iff_sets (haboveLogging _) Setting.isPlain_truth?]
  constructor
  · rintro ⟨hserviceName, henvironment, ⟨hsentinel, hpolicy, hdepth, hbuilder⟩, hlevel, hasJson⟩
    exact ⟨hserviceName, henvironment, hsentinel, hpolicy, hdepth, hbuilder, hlevel, hasJson⟩
  · rintro ⟨hserviceName, henvironment, hsentinel, hpolicy, hdepth, hbuilder, hlevel, hasJson⟩
    exact ⟨hserviceName, henvironment, ⟨hsentinel, hpolicy, hdepth, hbuilder⟩, hlevel, hasJson⟩

/-- **Settings are those of the highest layers.** Let the files be read, let no layer give anything
but tables for the engine and for the log, and let no key of a table for the field policy show from
under another such table. Then settings are loaded exactly if each of them is what the highest layer
gives for it, as a value of its kind, or has its built-in value where no layer gives anything: the
variables come first, then the file of the service, the file of the environment, the file of
defaults and the names that were asked for. So loading fails only if what a highest layer gives is
not of the kind. The entries of each layer may come in any order.

**Proof sketch.** All layers, in whatever order their entries come, are layers of entries, and
loading reads the settings of all of them together. So this is
`Targeting.Application.ofEntries_together_iff` for the layers in their rank. -/
theorem load_eq_ok_iff {sources : Sources} {environment service : String}
    {arrangement : Arrangement} {base forEnvironment forService : Layer}
    (hbase : sources.fileLayer arrangement .common "default" = .ok base)
    (henvironment : sources.fileLayer arrangement .environment environment = .ok forEnvironment)
    (hservice : sources.fileLayer arrangement .service service = .ok forService)
    (htables : ∀ layer ∈ sources.ranked environment service arrangement base forEnvironment
      forService, layer.GivesTables "engine" ∧ layer.GivesTables "observability")
    (hpolicy : Layer.CoversTables
      (sources.ranked environment service arrangement base forEnvironment forService)
      ["engine", "missing_field_policy"])
    (application : Application) :
    load sources environment service arrangement = .ok application ↔
      application.IsSetBy
        (sources.ranked environment service arrangement base forEnvironment forService) := by
  have hentries : ∀ layer ∈ sources.ranked environment service arrangement base forEnvironment
      forService, ∃ entries, layer = Layer.ofEntries entries := by
    simp only [Sources.ranked, List.forall_mem_cons]
    exact ⟨⟨_, rfl⟩, Layer.exists_ofEntries_of_fileLayer hservice,
      Layer.exists_ofEntries_of_fileLayer henvironment, Layer.exists_ofEntries_of_fileLayer hbase,
      ⟨_, rfl⟩, by simp⟩
  have hlayers : sources.layers environment service arrangement = .ok
      (sources.ranked environment service arrangement base forEnvironment forService).reverse := by
    rw [Sources.layers, hbase, henvironment, hservice]
    rfl
  rw [← ofEntries_together_iff hentries htables hpolicy, load, hlayers]
  rfl

/-- A variable over a file of the environment over a file of defaults: a text that is no truth value
is covered, a number with a fraction is read as a natural number, a day as a text, and what each
layer leaves out another one gives. The service has the name of the environment, by way of a folder,
so its file counts twice. The entries of all layers come the other way round.

**Proof sketch.** The files, the tables and what is loaded are computed. What the layers set then
follows from the theorem. -/
theorem load_eq_ok_iff_covered :
    let sources : Sources := {
      files := .ofFolder (.ofList [
        ("default.toml",
          "timeout = 1.5\n[engine]\nbuilder_mode = 'x'\nmax_reference_depth = 2.0\n"),
        ("test.toml", "engine.builder_mode = true\nobservability.log_level = 1979-05-27\n"),
        ("sub/other.toml", "")])
      process := .ofList [("AUDIENCE_OBSERVABILITY__JSON_LOGS", "1"), ("AUDIENCE_PORT", "80")] }
    let arrangement : Arrangement := {
      process := List.reverse, entries _ := List.reverse
      process_perm := List.reverse_perm, entries_perm _ := List.reverse_perm }
    let file := fun tier name => (sources.fileLayer arrangement tier name).toOption.getD []
    let base := file .common "default"
    let forEnvironment := file .environment "test"
    let forService := file .service "sub/../test"
    let layers := sources.ranked "test" "sub/../test" arrangement base forEnvironment forService
    let application : Application := {
      serviceName := "sub/../test", environment := "test"
      engine := { depthLimit := 2, builderMode := true }
      logging := { level := "1979-05-27", asJson := true } }
    (sources.fileLayer arrangement .common "default" = .ok base ∧
        sources.fileLayer arrangement .environment "test" = .ok forEnvironment ∧
        sources.fileLayer arrangement .service "sub/../test" = .ok forService) ∧
      (∀ layer ∈ layers, layer.GivesTables "engine" ∧ layer.GivesTables "observability") ∧
      Layer.CoversTables layers ["engine", "missing_field_policy"] ∧
      load sources "test" "sub/../test" arrangement = .ok application ∧
      application.IsSetBy layers := by
  intro sources arrangement file base forEnvironment forService layers application
  have hread : ∀ tier name, (sources.fileLayer arrangement tier name).toOption.isSome = true →
      sources.fileLayer arrangement tier name = .ok (file tier name) := by
    intro tier name hsome
    obtain ⟨layer, hlayer⟩ := Option.isSome_iff_exists.1 hsome
    rw [toOption_eq_some_iff] at hlayer
    unfold file
    rw [hlayer]
    rfl
  have hbase : sources.fileLayer arrangement .common "default" = .ok base := by
    refine hread _ _ ?_
    unfold sources arrangement
    decide +kernel
  have henvironment : sources.fileLayer arrangement .environment "test" = .ok forEnvironment := by
    refine hread _ _ ?_
    unfold sources arrangement
    decide +kernel
  have hservice : sources.fileLayer arrangement .service "sub/../test" = .ok forService := by
    refine hread _ _ ?_
    unfold sources arrangement
    decide +kernel
  have hgiven : (∀ layer ∈ layers,
      layer.GivesTables "engine" ∧ layer.GivesTables "observability") ∧
        Layer.CoversTables layers ["engine", "missing_field_policy"] := by
    unfold layers base forEnvironment forService file sources arrangement
    decide +kernel
  have hload : load sources "test" "sub/../test" arrangement = .ok application := by
    unfold sources arrangement application
    decide +kernel
  have hset := load_eq_ok_iff hbase henvironment hservice hgiven.1 hgiven.2 application
  exact ⟨⟨hbase, henvironment, hservice⟩, hgiven.1, hgiven.2, hload, hset.1 hload⟩

/-- Two tables that name a field policy each: the higher one would be read as the lenient policy,
but the key of the lower one shows too, and nothing is loaded.

**Proof sketch.** The two files are read, and that the higher one names the lenient policy is
decided. The loader is run on the same files. -/
theorem not_load_of_isSetBy :
    let sources : Sources := {
      files := .ofFolder (.ofList [
        ("default.toml", "[engine.missing_field_policy]\nstrict = 1\n"),
        ("staging.toml", "[engine.missing_field_policy]\ndefault_empty = 1\n")]) }
    let file := fun tier name => (sources.fileLayer .sorted tier name).toOption.getD []
    let layers := sources.ranked "staging" "svc" .sorted (file .common "default")
      (file .environment "staging") (file .service "svc")
    let application : Application := { serviceName := "svc", environment := "staging" }
    (∀ layer ∈ layers, layer.GivesTables "engine" ∧ layer.GivesTables "observability") ∧
      application.IsSetBy layers ∧
      load sources "staging" "svc" = .error (.unsuitable "missing_field_policy") := by
  intro sources file layers application
  have htables : ∀ layer ∈ layers,
      layer.GivesTables "engine" ∧ layer.GivesTables "observability" := by
    unfold layers file sources
    decide +kernel
  have hset : application.IsSetBy layers := by
    unfold application layers file sources
    decide +kernel
  have hload : load sources "staging" "svc" = .error (.unsuitable "missing_field_policy") := by
    unfold sources
    decide +kernel
  exact ⟨htables, hset, hload⟩

end Application

end Targeting
