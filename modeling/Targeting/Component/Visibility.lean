import Targeting.Component.Catalogue
import Targeting.Verdicts

/-!
# Visible components

Which components of a catalogue are shown, by the verdicts on their audiences.

## Main definitions

* `Targeting.Catalogue.visibleOn` — those of several components that a page allows.
* `Targeting.Catalogue.shown` — those of several components that are shown.
* `Targeting.Catalogue.allShown` — all components that are shown.
* `Targeting.Catalogue.insertOn` — the registration of a component at a trigger.
-/

set_option autoImplicit false

namespace Targeting.Catalogue

variable {σ : Type}

/-- Of the components with the given names those that are allowed on a page, in the order given;
names without a component are left out. -/
def visibleOn (catalogue : Catalogue) (page : Option String) :
    List String → Verdicts σ → List String × Verdicts σ
  | [], verdicts => ([], verdicts)
  | name :: rest, verdicts =>
    match catalogue.get? name with
    | none => catalogue.visibleOn page rest verdicts
    | some component =>
      let (visible, verdicts) := verdicts.allows page component.pageAudience component.audience
      let (others, verdicts) := catalogue.visibleOn page rest verdicts
      (if visible then component.id :: others else others, verdicts)

/-- Of the components with the given names those that are shown on the page whose audience was
chosen. While pages are edited every component is shown; without a page audience none is. -/
def shown (catalogue : Catalogue) (names : List String) (verdicts : Verdicts σ) :
    List String × Verdicts σ :=
  if verdicts.settings.builderMode then
    (names.filter fun name => (catalogue.get? name).isSome, verdicts)
  else
    match verdicts.page with
    | none => ([], verdicts)
    | some page => catalogue.visibleOn (some page) names verdicts

/-- All components that are shown, in the order of registration. -/
def allShown (catalogue : Catalogue) (verdicts : Verdicts σ) : List String × Verdicts σ :=
  catalogue.shown catalogue.names verdicts

/-- Registers a component at a trigger, and shows it at once if it waits for that trigger and its
audiences allow it. -/
def insertOn (catalogue : Catalogue) (trigger : Trigger) (component : Component)
    (verdicts : Verdicts σ) : List String × Catalogue × Verdicts σ :=
  let catalogue := catalogue.insert component
  if component.trigger = trigger then
    let (names, verdicts) := catalogue.shown [component.id] verdicts
    (names, catalogue, verdicts)
  else ([], catalogue, verdicts)

end Targeting.Catalogue
