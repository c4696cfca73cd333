import Mathlib.Data.List.Nodup
import Targeting.Component.Catalogue
import Targeting.Proofs.Sorted.StableSort

/-!
# Catalogues as lists

A catalogue keeps its components in one dictionary, a list of names for their order, two indexes and
a list for each trigger. All of these say the same as one plain list of components: a component that
is registered takes the place of an earlier one of its name, at the end of the list, and each
question to the catalogue is a filter of the list.

## Main definitions

* `Targeting.Listing` — a list of components with distinct names.
* `Targeting.Catalogue.Lists` — whether all parts of a catalogue agree with a listing.
* `Targeting.Catalogue.Change` — a change, of a catalogue (`Catalogue.change`) or of a listing
  (`Listing.change`).
* `Targeting.Catalogue.AnswersAs` — whether all questions are answered as a listing says.

## Main results

* `Targeting.Catalogue.Lists.erase`, `Targeting.Catalogue.Lists.insert` — what a change keeps.
* `Targeting.Catalogue.after_answersAs` — after any changes a catalogue answers as the listing after
  the same changes.
-/

set_option autoImplicit false

namespace Targeting

/-! ## Listings -/

/-- A list of components, in which no name occurs twice. -/
@[ext] structure Listing where
  components : List Component := []
  distinct : (components.map (·.id)).Nodup := by exact List.nodup_nil

namespace Listing

/-- The component with a name. -/
def get? (listing : Listing) (name : String) : Option Component :=
  listing.components.find? (·.id = name)

/-- The listing without the component with a name. -/
def erase (listing : Listing) (name : String) : Listing where
  components := listing.components.filter (·.id ≠ name)
  distinct := listing.distinct.sublist (List.filter_sublist.map _)

/-- The listing with a component at its end, in place of an earlier one of its name. -/
def insert (listing : Listing) (component : Component) : Listing where
  components := (listing.erase component.id).components ++ [component]
  distinct := by
    rw [List.map_append, List.map_singleton, List.nodup_append]
    refine ⟨(listing.erase component.id).distinct, List.nodup_singleton _, ?_⟩
    rintro name hname _ hlast rfl
    obtain ⟨c, hc, rfl⟩ := List.mem_map.1 hname
    have hne := (List.mem_filter.1 hc).2
    exact absurd (List.mem_singleton.1 hlast) (by simpa using hne)

/-- The components with a trigger, in loading order. -/
def triggered (listing : Listing) (trigger : Trigger) : List Component :=
  sortByKey (·.order.toInt) (listing.components.filter (·.trigger = trigger))

variable {listing : Listing} {name : String} {component : Component} {trigger : Trigger}

/-- A component of a listing is found by its name. -/
lemma get?_eq_some_iff :
    listing.get? name = some component ↔ component ∈ listing.components ∧ component.id = name := by
  constructor
  · intro h
    exact ⟨List.mem_of_find?_eq_some h, by simpa using List.find?_some h⟩
  · rintro ⟨hmem, rfl⟩
    cases hget : listing.get? component.id with
    | none => exact absurd (List.find?_eq_none.1 hget component hmem) (by simp)
    | some other =>
      have hother : other.id = component.id := by simpa using List.find?_some hget
      have hother' := List.mem_of_find?_eq_some hget
      rw [List.inj_on_of_nodup_map listing.distinct hother' hmem hother]

/-- A listing without a name is as it was without the component of that name. -/
lemma erase_of_get?_eq_none (h : listing.get? name = none) : listing.erase name = listing := by
  refine Listing.ext (List.filter_eq_self.2 fun component hmem => ?_)
  simpa using List.find?_eq_none.1 h component hmem

/-- After an erasure its name has no component, and the other ones have theirs. -/
lemma get?_erase (other : String) :
    (listing.erase name).get? other = if other = name then none else listing.get? other := by
  refine Option.ext fun component => ?_
  split_ifs with h
  · subst h
    simp [get?_eq_some_iff, erase]
  · simp only [get?_eq_some_iff, erase, List.mem_filter]
    constructor
    · rintro ⟨⟨hmem, -⟩, hid⟩
      exact ⟨hmem, hid⟩
    · rintro ⟨hmem, rfl⟩
      exact ⟨⟨hmem, by simpa using h⟩, rfl⟩

/-- After an insertion its name has the component, and the other ones have theirs. -/
lemma get?_insert (name : String) :
    (listing.insert component).get? name =
      if name = component.id then some component else listing.get? name := by
  have hsplit : (listing.insert component).get? name =
      ((listing.erase component.id).get? name).or ([component].find? (·.id = name)) :=
    List.find?_append
  rw [hsplit, get?_erase]
  split_ifs with h
  · simp [h]
  · simp [Ne.symm h]

/-- The components with a trigger are components with this trigger, and they are all. -/
lemma mem_triggered :
    component ∈ listing.triggered trigger ↔
      component ∈ listing.components ∧ component.trigger = trigger := by
  rw [triggered, (sortByKey_perm _ _).mem_iff, List.mem_filter, decide_eq_true_iff]

/-- An erasure leaves the loading order of the other components. -/
lemma triggered_erase (name : String) (trigger : Trigger) :
    (listing.erase name).triggered trigger =
      (listing.triggered trigger).filter (·.id ≠ name) := by
  rw [triggered, triggered, filter_sortByKey_of, erase, List.filter_filter, List.filter_filter]
  simp only [Bool.and_comm]

/-- An insertion sorts the component into the loading order at its trigger, and changes no other. -/
lemma triggered_insert (component : Component) (trigger : Trigger) :
    (listing.insert component).triggered trigger =
      if trigger = component.trigger then
        sortByKey (·.order.toInt) ((listing.erase component.id).triggered trigger ++ [component])
      else (listing.erase component.id).triggered trigger := by
  rw [triggered, triggered, insert, List.filter_append, List.filter_singleton]
  split_ifs with h
  · rw [decide_eq_true h.symm, cond_true, sortByKey_append_singleton]
  · rw [decide_eq_false (Ne.symm h), cond_false, List.append_nil]

end Listing

/-! ## Indexes -/

namespace Index

/-- The names of the components with a key, in their order; nothing has the empty key. -/
def namesAt (key : Component → Option String) (k : String) (components : List Component) :
    List String :=
  if k = "" then [] else (components.filter (key · = some k)).map (·.id)

/-- Whether an index lists the names of components by their keys, and has no key without names. -/
structure Lists (index : Index) (key : Component → Option String)
    (components : List Component) : Prop where
  names : ∀ k, (index.get? k).getD [] = namesAt key k components
  occupied : ∀ k, index.get? k ≠ some []

variable {index : Index} {key : Component → Option String} {components : List Component}

/-- A key of an index is one of some component, and not empty. -/
lemma Lists.mem_keys_iff (h : index.Lists key components) (k : String) :
    k ∈ index.keys ↔ k ≠ "" ∧ ∃ component ∈ components, key component = some k := by
  have hkeys : k ∈ index.keys ↔ namesAt key k components ≠ [] := by
    rw [Dict.mem_keys_iff, ← h.names k]
    have hoccupied := h.occupied k
    cases hget : index.get? k with
    | none => simp
    | some names => simpa [hget] using hoccupied
  rw [hkeys, namesAt]
  split_ifs with hk
  · simp [hk]
  · simp [hk]

/-- After a name is added, its key has the name at the end of its list. -/
lemma getD_get?_add (index : Index) (key : Option String) (name k : String) :
    ((index.add key name).get? k).getD [] =
      (index.get? k).getD [] ++ if key = some k ∧ k ≠ "" then [name] else [] := by
  unfold add
  split
  · simp
  · next key =>
    by_cases hkey : key = ""
    · subst hkey
      have hk : ¬ (some "" = some k ∧ k ≠ "") := by
        rintro ⟨h, hne⟩
        exact hne (Option.some.inj h).symm
      rw [if_neg hk, List.append_nil]
      rfl
    · rw [if_neg (by simpa using hkey), Dict.get?_insert]
      by_cases hk : k = key
      · subst hk
        simp [hkey]
      · simp [hk, Ne.symm hk]

/-- Adding a name leaves no key without names. -/
lemma add_occupied (h : ∀ k, index.get? k ≠ some []) (key : Option String) (name k : String) :
    (index.add key name).get? k ≠ some [] := by
  unfold add
  split
  · exact h k
  · split_ifs
    · exact h k
    · rw [Dict.get?_insert]
      split_ifs
      · simp
      · exact h k

/-- An index with the name of one more component lists this component last. -/
lemma Lists.add (h : index.Lists key components) (component : Component) :
    (index.add (key component) component.id).Lists key (components ++ [component]) := by
  refine ⟨fun k => ?_, fun k => add_occupied h.occupied _ _ k⟩
  rw [getD_get?_add, h.names, namesAt, namesAt]
  by_cases hk : k = ""
  · simp [hk]
  · by_cases hkey : key component = some k <;> simp [hk, hkey]

/-- After a name is dropped, the list of its key is without it.

**Proof sketch.** By cases on the key that is dropped, on whether it is the one that is looked up,
and on whether it has a list. Where the list becomes empty its key is erased, and a missing list
counts as an empty one. -/
lemma getD_get?_drop (index : Index) (key : Option String) (name k : String) :
    ((index.drop key name).get? k).getD [] =
      if key = some k then ((index.get? k).getD []).filter (· ≠ name)
      else (index.get? k).getD [] := by
  unfold drop
  split
  · simp
  · next key =>
    by_cases hk : key = k
    · subst hk
      rw [if_pos rfl]
      cases hget : index.get? key with
      | none => simp [hget]
      | some names =>
        dsimp only
        split
        · next hnil => simpa [Dict.get?_erase] using hnil.symm
        · simp
    · rw [if_neg (fun h => hk (Option.some.inj h))]
      cases hget : index.get? key with
      | none => rfl
      | some names =>
        dsimp only
        split
        · simp [Dict.get?_erase, Ne.symm hk]
        · simp [Dict.get?_insert, Ne.symm hk]

/-- Dropping a name leaves no key without names. -/
lemma drop_occupied (h : ∀ k, index.get? k ≠ some []) (key : Option String) (name k : String) :
    (index.drop key name).get? k ≠ some [] := by
  unfold drop
  split
  · exact h k
  · split
    · exact h k
    · split
      · rw [Dict.get?_erase]
        split_ifs
        · simp
        · exact h k
      · next names hne =>
        rw [Dict.get?_insert]
        split_ifs
        · simpa using hne
        · exact h k

/-- An index without a name lists the components without those of that name, if these are at the key
at which the name is dropped.

**Proof sketch.** At the key of the name the list loses it, by `Targeting.Index.getD_get?_drop`,
and so do the names of the components. At another key nothing is dropped, and no component there has
the name. -/
lemma Lists.drop (h : index.Lists key components) {name : String} {k₀ : Option String}
    (hkey : ∀ component ∈ components, component.id = name → key component = k₀) :
    (index.drop k₀ name).Lists key (components.filter (·.id ≠ name)) := by
  refine ⟨fun k => ?_, fun k => drop_occupied h.occupied _ _ k⟩
  have hnames : namesAt key k (components.filter (·.id ≠ name)) =
      (namesAt key k components).filter (· ≠ name) := by
    unfold namesAt
    split_ifs
    · rfl
    · rw [List.filter_map, List.filter_filter, List.filter_filter]
      simp only [Function.comp_def, Bool.and_comm]
  rw [getD_get?_drop, h.names, hnames]
  split_ifs with hk
  · rfl
  · -- at another key there is no component of that name
    refine (List.filter_eq_self.2 fun other hother => ?_).symm
    unfold namesAt at hother
    split_ifs at hother
    · cases hother
    · obtain ⟨component, hmem, rfl⟩ := List.mem_map.1 hother
      obtain ⟨hmem, hcomponent⟩ := List.mem_filter.1 hmem
      simp only [ne_eq, decide_not, Bool.not_eq_true', decide_eq_false_iff_not]
      rintro rfl
      exact hk ((hkey component hmem rfl).symm.trans (by simpa using hcomponent))

end Index

/-! ## Catalogues -/

namespace Catalogue

/-- Whether all parts of a catalogue agree with a listing. -/
structure Lists (catalogue : Catalogue) (listing : Listing) : Prop where
  entries : ∀ name, catalogue.get? name = listing.get? name
  names : catalogue.names = listing.components.map (·.id)
  byPage : catalogue.byPage.Lists (·.pageAudience) listing.components
  byAudience : catalogue.byAudience.Lists (·.audience) listing.components
  triggered : ∀ trigger, catalogue.triggered trigger = (listing.triggered trigger).map (·.id)

/-- The empty catalogue agrees with the empty listing. -/
lemma empty_lists : ({} : Catalogue).Lists {} where
  entries _ := rfl
  names := rfl
  byPage := ⟨fun k => by simp [Index.namesAt], fun _ h => nomatch h⟩
  byAudience := ⟨fun k => by simp [Index.namesAt], fun _ h => nomatch h⟩
  triggered trigger := by cases trigger <;> rfl

section Triggered

variable (catalogue : Catalogue) (trigger : Trigger) (names : List String)

@[simp] lemma entries_withTriggered :
    (catalogue.withTriggered trigger names).entries = catalogue.entries := by
  cases trigger <;> rfl

@[simp] lemma names_withTriggered :
    (catalogue.withTriggered trigger names).names = catalogue.names := by
  cases trigger <;> rfl

@[simp] lemma byPage_withTriggered :
    (catalogue.withTriggered trigger names).byPage = catalogue.byPage := by
  cases trigger <;> rfl

@[simp] lemma byAudience_withTriggered :
    (catalogue.withTriggered trigger names).byAudience = catalogue.byAudience := by
  cases trigger <;> rfl

/-- The names for a trigger change, those for the other one do not. -/
lemma triggered_withTriggered (other : Trigger) :
    (catalogue.withTriggered trigger names).triggered other =
      if other = trigger then names else catalogue.triggered other := by
  cases trigger <;> cases other <;> rfl

end Triggered

variable {catalogue : Catalogue} {listing : Listing}

/-- A name is that of a component exactly when the listing has the component under this name. -/
lemma Lists.get?_eq_some_iff (h : catalogue.Lists listing) {name : String}
    {component : Component} :
    catalogue.get? name = some component ↔
      component ∈ listing.components ∧ component.id = name := by
  rw [h.entries, Listing.get?_eq_some_iff]

/-! ### Erasure -/

/-- The only component of its name has one trigger, so an erasure there leaves nothing of it.

**Proof sketch.** Without the name, the listing has at each trigger what the catalogue has there
without it. At another trigger nothing goes, since the component of the name is the only one and has
the trigger of the erasure. -/
lemma Lists.triggered_erase (h : catalogue.Lists listing) {name : String} {removed : Component}
    (hremoved : listing.get? name = some removed) (trigger : Trigger) :
    (if trigger = removed.trigger then (catalogue.triggered removed.trigger).filter (· ≠ name)
      else catalogue.triggered trigger) =
      ((listing.erase name).triggered trigger).map (·.id) := by
  have herase : ((listing.erase name).triggered trigger).map (·.id) =
      (catalogue.triggered trigger).filter (· ≠ name) := by
    rw [h.triggered, List.filter_map, Listing.triggered_erase]
    rfl
  rw [herase]
  split_ifs with htrigger
  · rw [htrigger]
  · -- no component of the name has another trigger
    refine (List.filter_eq_self.2 fun other hother => ?_).symm
    rw [h.triggered] at hother
    obtain ⟨component, hcomponent, rfl⟩ := List.mem_map.1 hother
    obtain ⟨hmem, hsame⟩ := Listing.mem_triggered.1 hcomponent
    rw [decide_eq_true_iff]
    rintro rfl
    have hget := Listing.get?_eq_some_iff.2 ⟨hmem, rfl⟩
    obtain rfl := Option.some.inj (hget.symm.trans hremoved)
    exact htrigger hsame.symm

/-- A catalogue without a name agrees with the listing without it.

**Proof sketch.** If no component has the name, neither side changes. Otherwise there is one only,
so the indices lose it at its own page, audience and trigger: `Targeting.Index.Lists.drop` for
the two indices and `Targeting.Catalogue.Lists.triggered_erase` for the triggers. -/
lemma Lists.erase (h : catalogue.Lists listing) (name : String) :
    (catalogue.erase name).Lists (listing.erase name) := by
  unfold Catalogue.erase
  have hget := h.entries name
  split
  · next hnone =>
    rw [Listing.erase_of_get?_eq_none (hget.symm.trans hnone)]
    exact h
  · next removed hremoved =>
    have hlisted := hget.symm.trans hremoved
    have honly : ∀ component ∈ listing.components, component.id = name → component = removed := by
      intro component hcomponent hname
      exact Option.some.inj ((h.get?_eq_some_iff.2 ⟨hcomponent, hname⟩).symm.trans hremoved)
    refine ⟨fun other => ?_, ?_, ?_, ?_, fun trigger => ?_⟩
    · have herase : (catalogue.entries.erase name).get? other =
          if other = name then none else catalogue.get? other := Dict.get?_erase
      rw [Listing.get?_erase, ← h.entries, ← herase]
      simp [Catalogue.get?]
    · simp only [names_withTriggered, h.names, Listing.erase, List.filter_map]
      rfl
    · rw [byPage_withTriggered]
      exact h.byPage.drop fun component hcomponent hname => by rw [honly component hcomponent hname]
    · rw [byAudience_withTriggered]
      exact h.byAudience.drop
        fun component hcomponent hname => by rw [honly component hcomponent hname]
    · rw [triggered_withTriggered]
      exact h.triggered_erase hlisted trigger

/-! ### Insertion -/

/-- The names of components of a listing are brought in the loading order of the components. -/
lemma inLoadingOrder_map_id (h : ∀ name, catalogue.get? name = listing.get? name)
    {components : List Component}
    (hmem : ∀ component ∈ components, component ∈ listing.components) :
    catalogue.inLoadingOrder (components.map Component.id) =
      (sortByKey (·.order.toInt) components).map Component.id := by
  rw [inLoadingOrder, sortByKey_map]
  refine congrArg (List.map Component.id) (sortByKey_congr fun component hcomponent => ?_)
  have hget : catalogue.get? component.id = some component :=
    (h component.id).trans (Listing.get?_eq_some_iff.2 ⟨hmem component hcomponent, rfl⟩)
  rw [orderOf, hget]
  rfl

/-- The entries with one more component are those of the listing that has it. -/
lemma Lists.get?_insert (h : catalogue.Lists listing) (component : Component) (name : String) :
    ((catalogue.erase component.id).entries.insert component.id component).get? name =
      (listing.insert component).get? name := by
  have hold := (h.erase component.id).entries name
  rw [Listing.get?_erase] at hold
  rw [Dict.get?_insert, Listing.get?_insert]
  split_ifs at hold ⊢
  · rfl
  · exact hold

/-- A catalogue with one more component agrees with the listing that has it.

**Proof sketch.** The insertion erases the component first, so `Targeting.Catalogue.Lists.erase`
applies, and then adds it to both indices by `Targeting.Index.Lists.add`. At its trigger the
names and the components are sorted alike, since each name is that of its component. -/
lemma Lists.insert (h : catalogue.Lists listing) (component : Component) :
    (catalogue.insert component).Lists (listing.insert component) := by
  have herased := h.erase component.id
  refine ⟨fun name => ?_, ?_, ?_, ?_, fun trigger => ?_⟩
  · rw [Catalogue.get?, Catalogue.insert, entries_withTriggered]
    exact h.get?_insert component name
  · simp [Catalogue.insert, herased.names, Listing.insert]
  · rw [Catalogue.insert, byPage_withTriggered]
    exact herased.byPage.add component
  · rw [Catalogue.insert, byAudience_withTriggered]
    exact herased.byAudience.add component
  · rw [Listing.triggered_insert, Catalogue.insert, triggered_withTriggered]
    split_ifs with htrigger
    · subst htrigger
      have hmem : ∀ c ∈ (listing.erase component.id).triggered component.trigger ++ [component],
          c ∈ (listing.insert component).components := by
        intro c hc
        rcases List.mem_append.1 hc with hc | hc
        · exact List.mem_append_left _ (Listing.mem_triggered.1 hc).1
        · exact List.mem_append_right _ hc
      have hnames : (catalogue.erase component.id).triggered component.trigger ++ [component.id] =
          ((listing.erase component.id).triggered component.trigger ++ [component]).map (·.id) := by
        rw [List.map_append, ← herased.triggered]
        rfl
      refine (congrArg _ hnames).trans ?_
      refine inLoadingOrder_map_id ?_ hmem
      exact h.get?_insert component
    · exact herased.triggered trigger

/-! ## Changes -/

/-- A change of the components on a page: one is registered, or the one with a name is taken out. -/
inductive Change where
  | insert (component : Component)
  | take (name : String)

/-- A catalogue after a change. -/
def change (catalogue : Catalogue) : Change → Catalogue
  | .insert component => catalogue.insert component
  | .take name => (catalogue.take name).2

/-- The catalogue after changes, from the empty one. -/
def after (changes : List Change) : Catalogue := changes.foldl change {}

end Catalogue

namespace Listing

/-- A listing after a change. -/
def change (listing : Listing) : Catalogue.Change → Listing
  | .insert component => listing.insert component
  | .take name => listing.erase name

/-- The listing after changes, from the empty one. -/
def after (changes : List Catalogue.Change) : Listing := changes.foldl change {}

end Listing

namespace Catalogue

variable {catalogue : Catalogue} {listing : Listing}

/-- A change keeps a catalogue and a listing in agreement. -/
lemma Lists.change (h : catalogue.Lists listing) (change : Change) :
    (catalogue.change change).Lists (listing.change change) := by
  cases change with
  | insert component => exact h.insert component
  | take name => exact h.erase name

/-- After the same changes, a catalogue and a listing agree. -/
theorem after_lists (changes : List Change) : (after changes).Lists (.after changes) := by
  have hfold : ∀ {catalogue : Catalogue} {listing : Listing}, catalogue.Lists listing →
      (changes.foldl Catalogue.change catalogue).Lists (changes.foldl Listing.change listing) := by
    induction changes with
    | nil => exact id
    | cons first rest ih => exact fun h => ih (h.change first)
  exact hfold empty_lists

/-! ## Questions -/

/-- Whether a catalogue answers all questions as a listing says. -/
structure AnswersAs (catalogue : Catalogue) (listing : Listing) : Prop where
  get? : ∀ name, catalogue.get? name = listing.get? name
  take : ∀ name, (catalogue.take name).1 = listing.get? name
  size : catalogue.size = listing.components.length
  isEmpty : catalogue.isEmpty = listing.components.isEmpty
  forEveryPage : catalogue.forPage everyPage = listing.components
  forPage : ∀ audience, audience ≠ everyPage → catalogue.forPage audience =
    listing.components.filter fun c => audience ≠ "" ∧ c.pageAudience = some audience
  forAudience : ∀ audience, catalogue.forAudience audience =
    listing.components.filter fun c => audience ≠ "" ∧ c.audience = some audience
  forTrigger : ∀ trigger, catalogue.forTrigger trigger =
    (listing.components.filter (·.trigger = trigger)).mergeSort fun a b => a.order ≤ b.order
  pages_increasing : catalogue.pages.Pairwise (· < ·)
  mem_pages : ∀ audience, audience ∈ catalogue.pages ↔
    audience ≠ "" ∧ ∃ c ∈ listing.components, c.pageAudience = some audience

/-- The components of a listing are found by their names. -/
lemma Lists.pick_map_id (h : catalogue.Lists listing) {components : List Component}
    (hmem : ∀ component ∈ components, component ∈ listing.components) :
    catalogue.pick (components.map (·.id)) = components := by
  rw [pick, List.filterMap_map]
  refine (List.filterMap_congr fun component hcomponent => ?_).trans List.filterMap_some
  exact h.get?_eq_some_iff.2 ⟨hmem component hcomponent, rfl⟩

/-- The components that an index has at a key are those of the listing with this key. -/
lemma Lists.pick_index (h : catalogue.Lists listing) {index : Index}
    {key : Component → Option String} (hindex : index.Lists key listing.components) (k : String) :
    catalogue.pick ((index.get? k).getD []) =
      listing.components.filter fun c => k ≠ "" ∧ key c = some k := by
  rw [hindex.names, Index.namesAt]
  split_ifs with hk
  · simp [hk, pick]
  · rw [h.pick_map_id fun component hcomponent => (List.mem_filter.1 hcomponent).1]
    simp [hk]

/-- A catalogue has as many entries as the listing has components. -/
lemma Lists.size (h : catalogue.Lists listing) : catalogue.size = listing.components.length := by
  have hkeys : catalogue.entries.keys.Nodup :=
    catalogue.entries.sorted.map _ fun _ _ hlt => String.ne_of_lt hlt
  have hperm : catalogue.entries.keys.Perm (listing.components.map (·.id)) := by
    refine (List.perm_ext_iff_of_nodup hkeys listing.distinct).2 fun name => ?_
    rw [Dict.mem_keys_iff, Option.isSome_iff_exists, List.mem_map]
    exact exists_congr fun component => h.get?_eq_some_iff
  have hlength := hperm.length_eq
  rwa [Dict.keys, List.length_map, List.length_map] at hlength

/-- **Catalogues are listings.** After any changes from the empty catalogue on, every question has
the answer that the plain list of components has, in which the same changes delete the entry with
the component's name, and registrations append the component.

**Proof sketch.** After the changes the catalogue still lists the components, by
`Targeting.Catalogue.after_lists`, and every question is one about a single index or about all
names. The trigger's names are sorted by a stable sort in the catalogue and by `List.mergeSort` in
the listing, which agree. -/
theorem after_answersAs (changes : List Change) : (after changes).AnswersAs (.after changes) := by
  have h := after_lists changes
  have hall := h.pick_map_id fun component hcomponent => hcomponent
  refine ⟨h.entries, h.entries, h.size, ?_, ?_, ?_, h.pick_index h.byAudience, ?_, ?_, ?_⟩
  · rw [isEmpty, h.size]
    cases (Listing.after changes).components <;> rfl
  · rw [forPage, if_pos rfl, h.names, hall]
  · intro audience haudience
    rw [forPage, if_neg haudience]
    exact h.pick_index h.byPage audience
  · intro trigger
    rw [forTrigger, h.triggered, h.pick_map_id fun c hc => (Listing.mem_triggered.1 hc).1,
      Listing.triggered, sortByKey_eq_mergeSort]
    simp only [Int64.le_iff_toInt_le]
  · exact (after changes).byPage.sorted.map _ fun _ _ hlt => hlt
  · exact h.byPage.mem_keys_iff

end Catalogue

end Targeting
