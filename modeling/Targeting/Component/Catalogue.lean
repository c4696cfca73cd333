import Targeting.Component.Basic

/-!
# Catalogues of components

The components that are registered on a page, found by their names, by their audiences and by their
triggers. A component that is registered again replaces the earlier one and comes last.

## Main definitions

* `Targeting.Catalogue` — the catalogues, with an index for each kind of question.
* `Targeting.Catalogue.insert`, `Targeting.Catalogue.erase` — the two changes.
* `Targeting.Catalogue.forPage`, `forAudience`, `forTrigger`, `pages` — the questions.
-/

set_option autoImplicit false

namespace Targeting

/-! ## Indexes -/

/-- Lists of names by a key. A key without names is not there. -/
abbrev Index := Dict (List String)

namespace Index

/-- The index with one more name at the end of a key's list; an absent or empty key has no list. -/
def add (index : Index) (key : Option String) (name : String) : Index :=
  match key with
  | none => index
  | some key =>
    if key.isEmpty then index else index.insert key ((index.get? key).getD [] ++ [name])

/-- The index without a name in a key's list. -/
def drop (index : Index) (key : Option String) (name : String) : Index :=
  match key with
  | none => index
  | some key =>
    match index.get? key with
    | none => index
    | some names =>
      match names.filter (· ≠ name) with
      | [] => index.erase key
      | rest => index.insert key rest

end Index

/-! ## Catalogues -/

/-- The components that are registered on a page. -/
structure Catalogue where
  /-- The components by their names. -/
  entries : Dict Component := ∅
  /-- The names in the order of registration. -/
  names : List String := []
  /-- The names by page audience, in the order of registration. -/
  byPage : Index := ∅
  /-- The names by the component's own audience, in the order of registration. -/
  byAudience : Index := ∅
  /-- The names of the components looked at when they are registered, in loading order. -/
  onLoad : List String := []
  /-- The names of the components looked at when they come into view, in loading order. -/
  onVisible : List String := []
deriving DecidableEq, Inhabited

namespace Catalogue

/-- The component with a name. -/
def get? (catalogue : Catalogue) (name : String) : Option Component := catalogue.entries.get? name

/-- The number of components. -/
def size (catalogue : Catalogue) : Nat := catalogue.entries.size

/-- Whether there are no components. -/
def isEmpty (catalogue : Catalogue) : Bool := catalogue.size == 0

/-- The names of the components with a trigger, in loading order. -/
def triggered (catalogue : Catalogue) : Trigger → List String
  | .onLoad => catalogue.onLoad
  | .onVisible => catalogue.onVisible

/-- The catalogue with other names for a trigger. -/
def withTriggered (catalogue : Catalogue) (trigger : Trigger) (names : List String) : Catalogue :=
  match trigger with
  | .onLoad => { catalogue with onLoad := names }
  | .onVisible => { catalogue with onVisible := names }

/-! ## Changes -/

/-- Takes the component with a name out of the catalogue and of all its indexes. -/
def erase (catalogue : Catalogue) (name : String) : Catalogue :=
  match catalogue.get? name with
  | none => catalogue
  | some component =>
    let trigger := component.trigger
    let catalogue := { catalogue with
      entries := catalogue.entries.erase name
      names := catalogue.names.filter (· ≠ name)
      byPage := catalogue.byPage.drop component.pageAudience name
      byAudience := catalogue.byAudience.drop component.audience name }
    catalogue.withTriggered trigger ((catalogue.triggered trigger).filter (· ≠ name))

/-- The component with a name, and the catalogue without it. -/
def take (catalogue : Catalogue) (name : String) : Option Component × Catalogue :=
  (catalogue.get? name, catalogue.erase name)

/-- The place of the component with a name among those with its trigger. -/
def orderOf (catalogue : Catalogue) (name : String) : Int64 :=
  ((catalogue.get? name).map (·.order)).getD 0

/-- Names in the loading order of their components; equal ones keep their places. -/
def inLoadingOrder (catalogue : Catalogue) (names : List String) : List String :=
  sortByKey (fun name => (catalogue.orderOf name).toInt) names

/-- Puts a component at the end of the catalogue, in place of an earlier one of its name. -/
def insert (catalogue : Catalogue) (component : Component) : Catalogue :=
  let name := component.id
  let trigger := component.trigger
  let catalogue := catalogue.erase name
  let catalogue := { catalogue with
    entries := catalogue.entries.insert name component
    names := catalogue.names ++ [name]
    byPage := catalogue.byPage.add component.pageAudience name
    byAudience := catalogue.byAudience.add component.audience name }
  catalogue.withTriggered trigger
    (catalogue.inLoadingOrder (catalogue.triggered trigger ++ [name]))

/-! ## Questions -/

/-- The components with the given names; names without one are left out. -/
def pick (catalogue : Catalogue) (names : List String) : List Component :=
  names.filterMap catalogue.get?

/-- The page audience that stands for all of them. -/
def everyPage : String := "*"

/-- The components with a page audience, in the order of registration. -/
def forPage (catalogue : Catalogue) (audience : String) : List Component :=
  if audience = everyPage then catalogue.pick catalogue.names
  else catalogue.pick ((catalogue.byPage.get? audience).getD [])

/-- The components with an audience of their own, in the order of registration. -/
def forAudience (catalogue : Catalogue) (audience : String) : List Component :=
  catalogue.pick ((catalogue.byAudience.get? audience).getD [])

/-- The components with a trigger, in loading order. -/
def forTrigger (catalogue : Catalogue) (trigger : Trigger) : List Component :=
  catalogue.pick (catalogue.triggered trigger)

/-- The page audiences that components have, in increasing order. -/
def pages (catalogue : Catalogue) : List String := catalogue.byPage.keys

end Catalogue

end Targeting
