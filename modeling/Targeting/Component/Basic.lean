import Targeting.Navigation.Basic

/-!
# Components

A part of a page that is shown to some audiences only.

## Main definitions

* `Targeting.Trigger` — the moment at which a component is looked at.
* `Targeting.Component` — a component, with `decoder` and `toJson`.
-/

set_option autoImplicit false

namespace Targeting

/-- The moment at which a component is looked at: when it is registered, or when it comes into
view. -/
inductive Trigger where
  | onLoad
  | onVisible
deriving DecidableEq, Repr, Inhabited

/-- The name of a trigger. -/
def Trigger.name : Trigger → String
  | onLoad => "onload"
  | onVisible => "onvisible"

/-- The trigger with a name. -/
def Trigger.ofName? (name : String) : Option Trigger := [onLoad, onVisible].find? (·.name = name)

/-- A component of a page. -/
structure Component where
  id : String
  /-- The audience of the pages on which it is shown. -/
  pageAudience : Option String := none
  /-- The audience to which it is shown. -/
  audience : Option String := none
  trigger : Trigger
  /-- Its place among the components with the same trigger. -/
  order : Int64 := 0
deriving DecidableEq, Inhabited

namespace Component

open Json in
/-- Reads a component. -/
def decoder : Decoder Component := record
  [⟨"cmpId", true, fun d c => do return { c with id := ← text d }⟩,
   ⟨"pageAudience", false, fun d c => do return { c with pageAudience := ← optional text d }⟩,
   ⟨"compAudience", false, fun d c => do return { c with audience := ← optional text d }⟩,
   ⟨"loadMode", true, fun d c => do return { c with trigger := ← oneOf Trigger.ofName? d }⟩,
   ⟨"loadingOrder", false, fun d c => do return { c with order := ← int64 d }⟩]
  { id := "", trigger := .onLoad }

/-- A component as a value. -/
def toJson (component : Component) : Json := .ofFields
  [("cmpId", .string component.id), ("pageAudience", .ofText? component.pageAudience),
   ("compAudience", .ofText? component.audience),
   ("loadMode", .string component.trigger.name),
   ("loadingOrder", .ofInt component.order.toInt)]

end Component

end Targeting
