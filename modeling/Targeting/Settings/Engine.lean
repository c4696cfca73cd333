import Targeting.Evaluation.Engine
import Targeting.Json.Decode

/-!
# Settings of the engine

How audiences are evaluated and what leaves a component unrestricted.

## Main definitions

* `Targeting.EngineSettings` — the settings; `Targeting.EngineSettings.decoder` reads them.
* `Targeting.EngineSettings.isOpen` — whether an audience restricts nothing.

## Main results

* `Targeting.EngineSettings.isOpen_iff` — which audiences restrict nothing.
-/

set_option autoImplicit false

namespace Targeting

/-- The name of a field policy. -/
def FieldPolicy.name : FieldPolicy → String
  | lenient => "default_empty"
  | strict => "strict"

/-- The field policy with a name. -/
def FieldPolicy.ofName? (name : String) : Option FieldPolicy :=
  [lenient, strict].find? (·.name = name)

/-- The settings of the engine. -/
structure EngineSettings where
  /-- The name that stands for no audience. -/
  sentinel : String := "--NONE--"
  policy : FieldPolicy := .lenient
  depthLimit : Nat := 16
  /-- Whether everything is shown, as pages are edited. -/
  builderMode : Bool := false
deriving DecidableEq, Inhabited

namespace EngineSettings

/-- The engine that evaluates rules under the settings. -/
def engine (settings : EngineSettings) : Engine :=
  { policy := settings.policy, depthLimit := settings.depthLimit }

/-- Whether an audience of a component restricts nothing: it is absent, empty or the sentinel. -/
def isOpen (settings : EngineSettings) (audience : Option String) : Bool :=
  match audience with
  | none => true
  | some name => name = "" || name = settings.sentinel

/-- An audience restricts nothing exactly if it is absent, empty or the sentinel. -/
theorem isOpen_iff {settings : EngineSettings} {audience : Option String} :
    settings.isOpen audience = true ↔
      audience = none ∨ audience = some "" ∨ audience = some settings.sentinel := by
  cases audience <;> simp [isOpen]

open Json in
/-- Reads settings; what is absent has its default. -/
def decoder : Decoder EngineSettings := record
  [⟨"no_restriction_sentinel", false, fun d s => do return { s with sentinel := ← text d }⟩,
   ⟨"missing_field_policy", false,
    fun d s => do return { s with policy := ← oneOf FieldPolicy.ofName? d }⟩,
   ⟨"max_reference_depth", false, fun d s => do return { s with depthLimit := ← natural 64 d }⟩,
   ⟨"builder_mode", false, fun d s => do return { s with builderMode := ← truth d }⟩] {}

/-- Settings as a value. -/
def toJson (settings : EngineSettings) : Json := .ofFields
  [("no_restriction_sentinel", .string settings.sentinel),
   ("missing_field_policy", .string settings.policy.name),
   ("max_reference_depth", .ofInt settings.depthLimit),
   ("builder_mode", .bool settings.builderMode)]

end EngineSettings

end Targeting
