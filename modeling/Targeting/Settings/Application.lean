import Targeting.Settings.Sources

/-!
# Settings of an application

The settings of an application are read from the layers of their sources. What no layer has keeps
its built-in value, and what a layer has must be of the right kind.

## Main definitions

* `Targeting.Application` — the settings; `Targeting.Logging` — those of the log.
* `Targeting.Application.load` — the settings from sources.
* `Targeting.Logging.ofVariables` — the settings of the log from variables alone.
-/

set_option autoImplicit false

namespace Targeting

/-! ## The settings -/

/-- Settings of the log. -/
structure Logging where
  level : String := "info"
  asJson : Bool := false
deriving DecidableEq, Inhabited

/-- The settings of an application. -/
structure Application where
  serviceName : String := ""
  environment : String := ""
  engine : EngineSettings := {}
  logging : Logging := {}
deriving DecidableEq, Inhabited

/-- Whether the application runs in the environment of production. -/
def Application.isProduction (application : Application) : Bool :=
  application.environment = "production"

/-! ## Reading -/

/-- A table of settings. -/
abbrev Entries := List (String × Setting)

/-- The setting at a key as a value of one kind, or the default where there is none. -/
def readEntry {α : Type} (entries : Entries) (key : String) (kind : Setting → Option α)
    (default : α) : Except SettingsError α :=
  match Dict.find? key entries with
  | none => .ok default
  | some value =>
    match kind value with
    | some value => .ok value
    | none => .error (.unsuitable key)

/-- The keys of the settings of the engine, in the order in which a list has them. -/
def EngineSettings.keys : List String :=
  ["no_restriction_sentinel", "missing_field_policy", "max_reference_depth", "builder_mode"]

/-- The settings of the engine in a table. -/
def EngineSettings.ofEntries (entries : Entries) : Except SettingsError EngineSettings := do
  let initial : EngineSettings := {}
  return {
    sentinel := ← readEntry entries "no_restriction_sentinel" Setting.text? initial.sentinel
    policy := ← readEntry entries "missing_field_policy" Setting.policy? initial.policy
    depthLimit := ← readEntry entries "max_reference_depth" (Setting.natural? 64) initial.depthLimit
    builderMode := ← readEntry entries "builder_mode" Setting.truth? initial.builderMode }

/-- The keys of the settings of the log, in the order in which a list has them. -/
def Logging.keys : List String := ["log_level", "json_logs"]

/-- The settings of the log in a table. -/
def Logging.ofEntries (entries : Entries) : Except SettingsError Logging := do
  let initial : Logging := {}
  return {
    level := ← readEntry entries "log_level" Setting.text? initial.level
    asJson := ← readEntry entries "json_logs" Setting.truth? initial.asJson }

/-- The settings of an application in a table. Keys that mean nothing are left aside. -/
def Application.ofEntries (entries : Entries) : Except SettingsError Application := do
  let engine ← readEntry entries "engine" (Setting.fields? EngineSettings.keys) []
  let logging ← readEntry entries "observability" (Setting.fields? Logging.keys) []
  return {
    serviceName := ← readEntry entries "service_name" Setting.text? ""
    environment := ← readEntry entries "environment" Setting.text? ""
    engine := ← EngineSettings.ofEntries engine
    logging := ← Logging.ofEntries logging }

/-! ## Loading -/

/-- The settings from all layers of their sources, whose entries come in some order. -/
def Application.load (sources : Sources) (environment service : String)
    (arrangement : Arrangement := .sorted) : Except SettingsError Application := do
  let layers ← sources.layers environment service arrangement
  Application.ofEntries (layers.foldl Setting.overlay (.table [])).entries

/-- The settings of a service in the environment that the variables name. -/
def Application.loadService (sources : Sources) (service : String)
    (arrangement : Arrangement := .sorted) : Except SettingsError Application :=
  Application.load sources sources.environment service arrangement

/-- The settings of the log that two variables name. -/
def Logging.ofVariables (process : Dict String) : Logging :=
  let initial : Logging := {}
  { level := (process.get? "RUST_LOG").getD initial.level
    asJson := (process.get? "JSON_LOGS").elim initial.asJson fun s => s = "true" || s = "1" }

end Targeting
