import Targeting.Proofs.Component.Listing
import Targeting.Proofs.Verdicts.Inquiry

/-!
# Components shown at their triggers

A component that is registered at a moment is shown at once if it waits for that moment, and a scan
of all components shows it too or not. Both must say the same, although the scan looks at the other
components first, and the judge may answer differently by then. They do, because the scan finds in
the memory what the registration has asked for: by the answers that are remembered at the end, each
of the two shows a component by its audiences alone.

While pages are edited, no audience is looked at: every registered component is shown, and it would
be allowed on every page.

## Main definitions

* `Targeting.Component.isShown` — whether a component is shown, by given answers.

## Main results

* `Targeting.Inquiry.under_shown` — the components that are shown, by given answers.
* `Targeting.Catalogue.insertOn_shows` — a registration shows a component exactly at its trigger,
  and if a scan of all components does.
-/

set_option autoImplicit false

namespace Targeting

/-- Whether a component is shown with the audience that was chosen for the page, by given answers
whether audiences hold. -/
def Component.isShown (component : Component) (settings : EngineSettings)
    (chosen : Option String) (answers : String → Bool) : Bool :=
  settings.builderMode || chosen.any fun page =>
    (Inquiry.allows settings (some page) component.pageAudience component.audience).under answers

/-! ## Shown by given answers -/

namespace Inquiry

variable {catalogue : Catalogue} {listing : Listing} {settings : EngineSettings}

/-- By given answers, those of the given names are allowed on a page whose component is. -/
lemma under_visibleOn (h : catalogue.Lists listing) (page : Option String)
    (answers : String → Bool) (names : List String) :
    (visibleOn settings catalogue page names).under answers =
      names.filter fun name => (catalogue.get? name).any fun c =>
        (allows settings page c.pageAudience c.audience).under answers := by
  induction names with
  | nil => rfl
  | cons name rest ih =>
    rw [visibleOn, List.filter_cons]
    cases hget : catalogue.get? name with
    | none => exact ih
    | some component =>
      have hid : component.id = name := (h.get?_eq_some_iff.1 hget).2
      dsimp only
      rw [under_bind, under_bind, ih, hid, under, Option.any_some]

/-- By given answers, those of the given names are shown whose component is. -/
lemma under_shown (h : catalogue.Lists listing) (chosen : Option String)
    (answers : String → Bool) (names : List String) :
    (shown settings chosen catalogue names).under answers =
      names.filter fun name =>
        (catalogue.get? name).any fun c => c.isShown settings chosen answers := by
  unfold shown Component.isShown
  split_ifs with hmode
  · refine List.filter_congr fun name _ => ?_
    cases catalogue.get? name <;> simp [hmode]
  · cases chosen with
    | none =>
      refine (List.filter_eq_nil_iff.2 fun name _ => ?_).symm
      cases catalogue.get? name <;> simp [hmode]
    | some page =>
      refine (under_visibleOn h (some page) answers names).trans ?_
      simp [hmode]

end Inquiry

/-! ## Shown by verdicts -/

namespace Catalogue

variable {σ : Type} {catalogue : Catalogue} {listing : Listing} {verdicts : Verdicts σ}

/-- While pages are edited, every component is allowed on every page, and no audience is looked
at. -/
lemma visibleOn_of_builderMode (h : catalogue.Lists listing)
    (hmode : verdicts.settings.builderMode = true) (page : Option String) (names : List String) :
    catalogue.visibleOn page names verdicts =
      (names.filter fun name => (catalogue.get? name).isSome, verdicts) := by
  induction names with
  | nil => rfl
  | cons name rest ih =>
    rw [visibleOn, List.filter_cons]
    cases hget : catalogue.get? name with
    | none => exact ih
    | some component =>
      have hid : component.id = name := (h.get?_eq_some_iff.1 hget).2
      have hallows : verdicts.allows page component.pageAudience component.audience =
          (true, verdicts) := if_pos hmode
      dsimp only
      rw [hallows, ih, hid]
      rfl

/-- A component is shown by itself exactly when a scan of all components shows it afterwards.

**Proof sketch.** Take the answers that are remembered after the scan. The verdicts before the scan
remember no others, so by these answers both questions come to a filter of the names that they are
about, and the filter is the same one. -/
lemma shown_singleton (h : catalogue.Lists listing) {component : Component}
    (hget : catalogue.get? component.id = some component) (verdicts : Verdicts σ) :
    let (names, after) := catalogue.shown [component.id] verdicts
    names = if component.id ∈ (catalogue.allShown after).1 then [component.id] else [] := by
  have hfirst := catalogue.shown_remembered [component.id] verdicts
  generalize catalogue.shown [component.id] verdicts = outcome at hfirst ⊢
  obtain ⟨names, after⟩ := outcome
  obtain ⟨hextends, hpage, hfirst⟩ := hfirst
  obtain ⟨hlater, -, hscan⟩ := catalogue.shown_remembered catalogue.names after
  obtain ⟨answers, hagrees⟩ := (catalogue.shown catalogue.names after).2.exists_agreesWith
  dsimp only at hextends hpage hfirst ⊢
  rw [hfirst answers (hlater.agreesWith hagrees), allShown, hscan answers hagrees,
    Inquiry.under_shown h, Inquiry.under_shown h, hextends.settings, hpage]
  have hmem : component.id ∈ catalogue.names := by
    rw [h.entries] at hget
    rw [h.names]
    exact List.mem_map_of_mem (Listing.get?_eq_some_iff.1 hget).1
  simp only [List.mem_filter, hmem, true_and, List.filter_singleton]
  cases (catalogue.get? component.id).any _ <;> rfl

/-- **A component is shown at its trigger, if at all.** After any changes of the components, and
whatever the verdicts are, a registration at a trigger shows the component exactly when the
component waits for this trigger and a scan of all components shows it right after; nothing else is
shown. While pages are edited, the components that are shown of some names are those that any page
allows, in the same order, and the verdicts stay as they are.

**Proof sketch.** After the changes the catalogue agrees with a listing, and still does after the
insertion. If the component waits for the trigger, then it alone is looked at, and it is shown
exactly when a scan of all components shows it, by `Targeting.Catalogue.shown_singleton`. At another
trigger nothing is looked at. While pages are edited, both ways of showing names are the same filter
and ask nothing. -/
theorem insertOn_shows {σ : Type} (changes : List Change) (trigger : Trigger)
    (component : Component) (verdicts : Verdicts σ) :
    let (names, catalogue, later) := (after changes).insertOn trigger component verdicts
    names =
        (if component.trigger = trigger ∧ component.id ∈ (catalogue.allShown later).1 then
          [component.id]
        else []) ∧
      (verdicts.settings.builderMode = true → ∀ page names,
        (after changes).visibleOn page names verdicts = (after changes).shown names verdicts ∧
          ((after changes).shown names verdicts).2 = verdicts) := by
  have hlists := after_lists changes
  have hinsert := hlists.insert component
  have hget : ((after changes).insert component).get? component.id = some component := by
    rw [hinsert.entries, Listing.get?_insert, if_pos rfl]
  have hbuilder : verdicts.settings.builderMode = true → ∀ page names,
      (after changes).visibleOn page names verdicts = (after changes).shown names verdicts ∧
        ((after changes).shown names verdicts).2 = verdicts := by
    intro hmode page names
    rw [visibleOn_of_builderMode hlists hmode, shown, if_pos hmode]
    exact ⟨rfl, rfl⟩
  -- at its own trigger the component is shown alone, at any other one nothing is looked at
  by_cases htrigger : component.trigger = trigger
  · have hshown := shown_singleton hinsert hget verdicts
    have hat : (after changes).insertOn trigger component verdicts =
        ((((after changes).insert component).shown [component.id] verdicts).1,
          (after changes).insert component,
          (((after changes).insert component).shown [component.id] verdicts).2) := if_pos htrigger
    rw [hat]
    refine ⟨?_, hbuilder⟩
    simpa only [htrigger, true_and] using hshown
  · have helse : (after changes).insertOn trigger component verdicts =
        ([], (after changes).insert component, verdicts) := if_neg htrigger
    rw [helse]
    exact ⟨(if_neg fun h => htrigger h.1).symm, hbuilder⟩

/-- A component that comes into view is registered again, for the moment of its registration and
with audiences of its own, with a judge that lets only the first two audiences hold; and while pages
are edited, with names in any order, one of them without a component.

**Proof sketch.** That the scan shows the component, and which names are shown while pages are
edited, is computed. The rest is the theorem, applied to the verdicts at the trigger and to those of
the edited page. -/
theorem insertOn_shows_changed :
    let snapshot : Snapshot := { rules := .ofList [("page", "x"), ("member", "x"), ("guest", "x")] }
    let judge : Judge Nat := fun _ _ count => (.ok (count < 2), count + 1)
    let changes : List Change :=
      [.insert { id := "a", trigger := .onVisible },
        .insert { id := "b", audience := some "guest", trigger := .onLoad }]
    let component : Component :=
      { id := "a", pageAudience := some "page", audience := some "member", trigger := .onLoad }
    let start : Verdicts Nat := { snapshot, settings := {}, judge, state := 0 }
    let verdicts := (start.choosePage [⟨"page", 1⟩]).2
    let edited := { start with settings := { builderMode := true } }
    let outcome := (after changes).insertOn .onLoad component verdicts
    outcome.1 = ["a"] ∧ "a" ∈ (outcome.2.1.allShown outcome.2.2).1 ∧
      edited.settings.builderMode = true ∧
      (after changes).visibleOn (some "guest") ["b", "c", "a"] edited =
        (after changes).shown ["b", "c", "a"] edited ∧
      ((after changes).visibleOn (some "guest") ["b", "c", "a"] edited).1 = ["b", "a"] := by
  intro snapshot judge changes component start verdicts edited outcome
  obtain ⟨hnames, -⟩ := insertOn_shows changes .onLoad component verdicts
  obtain ⟨-, hedited⟩ := insertOn_shows changes .onLoad component edited
  obtain ⟨hsame, -⟩ := hedited rfl (some "guest") ["b", "c", "a"]
  have hscan : "a" ∈ (outcome.2.1.allShown outcome.2.2).1 := by
    unfold outcome verdicts start component changes judge snapshot
    decide +kernel
  refine ⟨hnames.trans (if_pos ⟨rfl, hscan⟩), hscan, rfl, hsame, ?_⟩
  rw [hsame]
  unfold edited start changes judge snapshot
  decide +kernel

end Catalogue

end Targeting
