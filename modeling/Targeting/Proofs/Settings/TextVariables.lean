import Targeting.Proofs.Decimal.WholeNumber
import Targeting.Proofs.Settings.Layers
import Targeting.Proofs.Sorted.Dict

/-!
# Texts that variables set

The text of a variable becomes a truth value or a number if it reads as one, whatever the setting
is. Where the setting is a text, the value is written out again. So the setting has the text of the
variable exactly if that is how the value is written.

## Main definitions

* `Targeting.TextSetting` — the settings that are texts.
* `Targeting.misses` — whether a path stays clear of a part.
* `Targeting.IsKept` — whether a text is written out as it was.

## Main results

* `Targeting.Setting.text?_ofVariable_iff` — which texts are kept.
* `Targeting.Setting.at?_overlay` — the part to which a layer writes one value only.
* `Targeting.Application.value_eq_variable_iff` — when a setting has the text of its variable.
-/

set_option autoImplicit false

namespace Targeting

/-! ## Texts that are kept -/

/-- Whether the text of a variable is written out as it was: a truth value in small letters, a whole
number with no more characters than it takes, another number as the shortest decimal that reads as
it, and any text that is none of these. -/
def IsKept (text : String) : Prop :=
  match readTruth? text, (integer? text.toList).filter fitsInt64, Extended.ofText? text with
  | some _, _, _ => text = "true" ∨ text = "false"
  | none, some _, _ => IsShortest text.toList
  | none, none, some x => x.text = text
  | none, none, none => True

/-- The text of a variable is kept exactly if its value is written so.

**Proof sketch.** A text is read as a truth value, else as a whole number of 64 bits, else as a
float, else as it is, and each of these has one text form. So the text is kept if it is that form:
one of the two words of truth values, or a number as it is printed, by
`Targeting.toString_integer?_iff`. -/
lemma Setting.text?_ofVariable_iff (text : String) :
    (Setting.ofVariable text).text? = some text ↔ IsKept text := by
  unfold Setting.ofVariable IsKept
  cases htruth : readTruth? text with
  | some b =>
    -- the word of a truth value reads as this one only
    have hword : ∀ other, text = truthText other → b = other := by
      rintro other rfl
      rw [readTruth?_truthText] at htruth
      exact (Option.some.inj htruth).symm
    rw [Setting.text?, Option.some.injEq]
    constructor
    · rintro rfl
      cases b <;> simp [truthText]
    · rintro (htext | htext)
      · rw [hword true htext, htext]; rfl
      · rw [hword false htext, htext]; rfl
  | none =>
    cases hint : (integer? text.toList).filter fitsInt64 with
    | some n =>
      obtain ⟨hn, -⟩ := Option.filter_eq_some_iff.1 hint
      rw [← toString_integer?_iff hn, String.ofList_toList]
      exact Option.some_inj
    | none =>
      cases Extended.ofText? text with
      | some x => exact Option.some_inj
      | none => exact iff_of_true rfl trivial

instance : DecidablePred IsKept :=
  fun text => decidable_of_iff _ (Setting.text?_ofVariable_iff text)

/-! ## A part that one value is written to -/

/-- Whether a path leads neither to the part at keys nor to what is above or within it. -/
def misses : List Step → List String → Bool
  | .key name :: path, key :: keys => name ≠ key || misses path keys
  | _, _ => false

namespace Setting

/-- What is written elsewhere leaves a part as it was.

**Proof sketch.** Induction on the keys of the part. If the path begins with another key, the write
does not touch the part at the first key. If it begins with the same one, the write is made within
that part, where the rest of the path misses the rest of the keys. -/
lemma at?_update_of_misses {path : List Step} {keys : List String} (h : misses path keys = true)
    (value below : Setting) : (update value path below).at? keys = below.at? keys := by
  induction keys generalizing path below with
  | nil => cases path <;> simp [misses] at h
  | cons key keys ih =>
    match path with
    | .key name :: path =>
      rw [at?, at?, find?_update_key]
      by_cases hkey : key = name
      · subst hkey
        have hpath : misses path keys = true := by simpa [misses] using h
        rw [if_pos rfl, Option.bind_some, ih hpath]
        cases Dict.find? key below.entries with
        | some part => rfl
        | none =>
          cases keys with
          | nil => cases path <;> simp [misses] at hpath
          | cons key keys => rfl
      · rw [if_neg hkey]
    | [] => simp [misses] at h
    | .item place :: path => simp [misses] at h

/-- A single value that is written to a part is found there. -/
lemma at?_update_keys {value : Setting} (hvalue : ∀ below, merge below value = value)
    (keys : List String) (below : Setting) :
    (update value (keys.map .key) below).at? keys = some value := by
  induction keys generalizing below with
  | nil => rw [List.map_nil, at?, update, hvalue]
  | cons key keys ih => rw [List.map_cons, at?, find?_update_key, if_pos rfl, Option.bind_some, ih]

/-- A part that has a value keeps it, if a layer writes nothing else to it. -/
lemma at?_overlay_of_at? {value : Setting} (hvalue : ∀ below, merge below value = value)
    {keys : List String} {layer : Layer}
    (honly : ∀ write ∈ layer, write = (keys.map .key, value) ∨ misses write.1 keys = true)
    {below : Setting} (hbelow : below.at? keys = some value) :
    (below.overlay layer).at? keys = some value := by
  induction layer generalizing below with
  | nil => exact hbelow
  | cons write layer ih =>
    obtain ⟨hwrite, hlayer⟩ := List.forall_mem_cons.1 honly
    refine ih hlayer ?_
    rcases hwrite with rfl | hmiss
    · exact at?_update_keys hvalue keys below
    · rwa [at?_update_of_misses hmiss]

/-- **A part that one value is written to** has this value after a layer, in whatever order the
layer has its writes and whatever was below it.

**Proof sketch.** After the write to the part it has the value, by
`Targeting.Setting.at?_update_keys`. The writes after it write the same or miss the part, so it
keeps the value. -/
lemma at?_overlay {value : Setting} (hvalue : ∀ below, merge below value = value)
    {keys : List String} {layer : Layer} (hmem : (keys.map .key, value) ∈ layer)
    (honly : ∀ write ∈ layer, write = (keys.map .key, value) ∨ misses write.1 keys = true)
    (below : Setting) : (below.overlay layer).at? keys = some value := by
  obtain ⟨before, after, rfl⟩ := List.append_of_mem hmem
  have hsplit : below.overlay (before ++ (keys.map .key, value) :: after) =
      (update value (keys.map .key) (below.overlay before)).overlay after := by
    rw [overlay, List.foldl_append]
    rfl
  rw [hsplit]
  refine at?_overlay_of_at? hvalue (fun write hwrite => ?_) (at?_update_keys hvalue keys _)
  exact honly write (List.mem_append_right _ (List.mem_cons_of_mem _ hwrite))

/-- The value of a variable is a single value. -/
lemma merge_ofVariable (text : String) (below : Setting) :
    merge below (ofVariable text) = ofVariable text := by
  unfold ofVariable
  split <;> rfl

end Setting

/-! ## Variables -/

/-- The settings of an application that are texts. -/
inductive TextSetting where
  | serviceName
  | environment
  | sentinel
  | logLevel
deriving DecidableEq, Repr, Inhabited

namespace TextSetting

/-- The keys of the setting, each within the part before. -/
def keys : TextSetting → List String
  | serviceName => ["service_name"]
  | environment => ["environment"]
  | sentinel => ["engine", "no_restriction_sentinel"]
  | logLevel => ["observability", "log_level"]

/-- The key of the setting in a layer. -/
def key (setting : TextSetting) : String := ".".intercalate setting.keys

/-- The name of the variable of the setting. -/
def variableName : TextSetting → String
  | serviceName => "AUDIENCE_SERVICE_NAME"
  | environment => "AUDIENCE_ENVIRONMENT"
  | sentinel => "AUDIENCE_ENGINE__NO_RESTRICTION_SENTINEL"
  | logLevel => "AUDIENCE_OBSERVABILITY__LOG_LEVEL"

/-- The setting of an application. -/
def value (application : Application) : TextSetting → String
  | serviceName => application.serviceName
  | environment => application.environment
  | sentinel => application.engine.sentinel
  | logLevel => application.logging.level

/-- The variable of the setting has its key. -/
lemma variableKey?_variableName (setting : TextSetting) :
    variableKey? setting.variableName = some setting.key := by
  cases setting <;> decide +kernel

/-- The key of the setting leads to its part. -/
lemma keyPath_key (setting : TextSetting) : keyPath setting.key = setting.keys.map .key := by
  cases setting <;> decide +kernel

end TextSetting

namespace Sources

/-- Whether no other variable than that of a setting is written to its part: each other one leads
elsewhere. -/
def WritesAlone (sources : Sources) (setting : TextSetting) : Prop :=
  ∀ name ∈ sources.process.keys, name ≠ setting.variableName →
    ∀ key ∈ variableKey? name, misses (keyPath key) setting.keys = true

instance (sources : Sources) (setting : TextSetting) : Decidable (sources.WritesAlone setting) :=
  inferInstanceAs (Decidable (∀ name ∈ sources.process.keys, _ → ∀ key ∈ variableKey? name, _))

section WritesAlone

variable {sources : Sources} {setting : TextSetting} {text : String}

/-- The entry of a variable, in whatever order the variables come, is that of the setting or leads
elsewhere.

**Proof sketch.** In whatever order the variables come, they are those of the process. The one of
the setting has its key, and any other one misses the part of the setting, since that is what
`halone` says. -/
lemma variableSetting_cases (hset : sources.process.get? setting.variableName = some text)
    (halone : sources.WritesAlone setting) (arrangement : Arrangement) {entry : String × Setting}
    (hentry : entry ∈ (arrangement.process sources.process.entries).filterMap variableSetting?) :
    entry = (setting.key, Setting.ofVariable text) ∨
      misses (keyPath entry.1) setting.keys = true := by
  obtain ⟨⟨name, value⟩, hvariable, hkeyed⟩ := List.mem_filterMap.1 hentry
  obtain ⟨key, hkey, rfl⟩ := Option.map_eq_some_iff.1 hkeyed
  have hvalue := Dict.mem_entries_iff.1 ((arrangement.process_perm _).subset hvariable)
  by_cases hname : name = setting.variableName
  · subst hname
    obtain rfl := Option.some.inj (hvalue.symm.trans hset)
    obtain rfl := Option.some.inj (hkey.symm.trans setting.variableKey?_variableName)
    exact .inl rfl
  · have hmem : name ∈ sources.process.keys := by
      rw [Dict.mem_keys_iff, hvalue, Option.isSome_some]
    exact .inr (halone name hmem hname key hkey)

/-- The layer of the variables writes the value of the variable to the part of the setting.

**Proof sketch.** The variable has the key of the setting. No other one has it, since that key does
not lead elsewhere, so the entry stays in the map of the entries. -/
lemma mem_variableLayer (hset : sources.process.get? setting.variableName = some text)
    (halone : sources.WritesAlone setting) (arrangement : Arrangement) :
    (setting.keys.map .key, Setting.ofVariable text) ∈ sources.variableLayer arrangement := by
  rw [← setting.keyPath_key]
  refine List.mem_map.2 ⟨(setting.key, .ofVariable text), ?_, rfl⟩
  refine (arrangement.entries_perm _ _).mem_iff.2 (Dict.mem_entries_ofList ?_ ?_)
  · refine List.mem_filterMap.2 ⟨(setting.variableName, text), ?_, ?_⟩
    · exact (arrangement.process_perm _).mem_iff.2 (Dict.mem_entries_iff.2 hset)
    · rw [variableSetting?, setting.variableKey?_variableName, Option.map_some]
  · intro other hother hkey
    refine (variableSetting_cases hset halone arrangement hother).resolve_right fun hmiss => ?_
    rw [hkey, setting.keyPath_key] at hmiss
    cases setting <;> simp [TextSetting.keys, misses] at hmiss

/-- All other writes of the layer of the variables miss the part of the setting. -/
lemma variableLayer_cases (hset : sources.process.get? setting.variableName = some text)
    (halone : sources.WritesAlone setting) (arrangement : Arrangement) :
    ∀ write ∈ sources.variableLayer arrangement,
      write = (setting.keys.map .key, Setting.ofVariable text) ∨
        misses write.1 setting.keys = true := by
  intro write hwrite
  obtain ⟨entry, hentry, rfl⟩ := List.mem_map.1 hwrite
  have hlisted := Dict.mem_of_mem_entries_ofList ((arrangement.entries_perm _ _).subset hentry)
  refine (variableSetting_cases hset halone arrangement hlisted).imp_left ?_
  rintro rfl
  exact congrArg (·, Setting.ofVariable text) setting.keyPath_key

end WritesAlone

end Sources

/-! ## The settings -/

/-- An entry of a part is read from the entries that the part has as a table. -/
lemma find?_of_at? {top part : Setting} {name key : String} {keys : List String} {entries : Entries}
    (hpart : top.at? [name, key] = some part)
    (hread : readEntry top.entries name (Setting.fields? keys) [] = .ok entries) :
    Dict.find? key entries = some part := by
  rw [readEntry_eq_ok_iff] at hread
  rw [← Setting.find?_at?, Setting.at?_singleton] at hpart
  cases hname : Dict.find? name top.entries with
  | none =>
    rw [hname] at hpart
    cases hpart
  | some table =>
    rw [hname, Option.getD_some] at hpart
    rw [hname, Option.elim_some] at hread
    -- a part with an entry is a table
    cases table with
    | table _ => exact Option.some.inj hread ▸ hpart
    | _ => cases hpart

/-- What stands at the part of a setting is read as its text.

**Proof sketch.** The loader reads the part of the setting as a text, as one of its steps. Which
step that is depends on the setting: the name and the environment stand at the top, the sentinel in
the table of the engine, the level in that of the log. -/
lemma TextSetting.text?_of_ofEntries {top part : Setting} {application : Application}
    (h : Application.ofEntries top.entries = .ok application) (setting : TextSetting)
    (hpart : top.at? setting.keys = some part) :
    part.text? = some (setting.value application) := by
  unfold Application.ofEntries at h
  simp only [bind_eq_ok_iff] at h
  obtain ⟨engine, hengine, logging, hlogging, serviceName, hserviceName, environment, henvironment,
    engineSettings, hengineSettings, loggingSettings, hloggingSettings, h⟩ := h
  obtain rfl := Except.ok.inj h
  have hread : ∀ {entries : Entries} {key default value : String},
      readEntry entries key Setting.text? default = .ok value →
      Dict.find? key entries = some part → part.text? = some value := by
    intro entries key default value hentry hfind
    rwa [readEntry_eq_ok_iff, hfind, Option.elim_some] at hentry
  cases setting with
  | serviceName => exact hread hserviceName (by rwa [← Setting.at?_singleton])
  | environment => exact hread henvironment (by rwa [← Setting.at?_singleton])
  | sentinel =>
    exact hread (EngineSettings.ofEntries_eq_ok_iff.1 hengineSettings).1
      (find?_of_at? hpart hengine)
  | logLevel =>
    exact hread (Logging.ofEntries_eq_ok_iff.1 hloggingSettings).1 (find?_of_at? hpart hlogging)

namespace Application

/-- **A setting has the text of its variable** exactly if the text is kept. Let a variable of a
setting that is a text be set, and let no other variable be written to the part of the setting. If
settings are loaded, with the variables and the entries of the layers in any order, the setting is
what the value of the variable is written as. So it is the text of the variable, and for the
sentinel that text leaves a component unrestricted, exactly if the value is written like this.

**Proof sketch.** The layer of the variables is the highest one, and what it writes to the part is
the value of the variable alone, so the part has it in the end by `Targeting.Setting.at?_overlay`.
What is loaded is this value as a text, and that is the text of the variable exactly if this is
kept, by `Targeting.Setting.text?_ofVariable_iff`. The empty text restricts nothing, but it is kept
too. -/
theorem value_eq_variable_iff {sources : Sources} {environment service : String}
    {arrangement : Arrangement} {application : Application} {setting : TextSetting} {text : String}
    (hset : sources.process.get? setting.variableName = some text)
    (halone : sources.WritesAlone setting)
    (hload : load sources environment service arrangement = .ok application) :
    (Setting.ofVariable text).text? = some (setting.value application) ∧
      (setting.value application = text ↔ IsKept text) ∧
      (setting = .sentinel → (application.engine.isOpen (some text) = true ↔ IsKept text)) := by
  obtain ⟨layers, hlayers, hentries⟩ := bind_eq_ok_iff.1 hload
  -- the layer of the variables is the highest
  have htop : ∃ below : Setting, layers.foldl Setting.overlay (.table []) =
      below.overlay (sources.variableLayer arrangement) := by
    unfold Sources.layers at hlayers
    simp only [bind_eq_ok_iff] at hlayers
    obtain ⟨base, -, forEnvironment, -, forService, -, hlayers⟩ := hlayers
    obtain rfl := Except.ok.inj hlayers
    exact ⟨_, rfl⟩
  obtain ⟨below, htop⟩ := htop
  have hpart : (below.overlay (sources.variableLayer arrangement)).at? setting.keys =
      some (Setting.ofVariable text) :=
    Setting.at?_overlay (Setting.merge_ofVariable text)
      (Sources.mem_variableLayer hset halone arrangement)
      (Sources.variableLayer_cases hset halone arrangement) below
  rw [htop] at hentries
  have hvalue := setting.text?_of_ofEntries hentries hpart
  have hkept : setting.value application = text ↔ IsKept text := by
    rw [← Setting.text?_ofVariable_iff, hvalue, Option.some.injEq]
  refine ⟨hvalue, hkept, ?_⟩
  rintro rfl
  have hempty : IsKept "" := trivial
  rw [EngineSettings.isOpen_iff]
  constructor
  · rintro (hnone | htext | hsame)
    · cases hnone
    · rwa [Option.some.inj htext]
    · exact hkept.1 (Option.some.inj hsame).symm
  · exact fun h => .inr (.inr (congrArg some (hkept.2 h).symm))

/-- A number below zero that is written with no more characters than it takes is kept, over the file
of defaults and beside a variable of another setting.

**Proof sketch.** The variable, that it writes alone, and what is loaded are computed, with the
variables in the opposite order. That `-5` is kept is decided, and the theorem says the rest. -/
theorem value_eq_variable_iff_whole :
    let sources : Sources := {
      files := .ofFolder (.ofList
        [("default.toml", "timeout = 1.5\nengine.no_restriction_sentinel = '--ANY--'\n")])
      process := .ofList [("AUDIENCE_ENGINE__BUILDER_MODE", "TRUE"),
        ("AUDIENCE_ENGINE__NO_RESTRICTION_SENTINEL", "-5")] }
    let arrangement : Arrangement := {
      process := List.reverse, entries _ := List.reverse
      process_perm := List.reverse_perm, entries_perm _ := List.reverse_perm }
    let application : Application := {
      serviceName := "svc", environment := "test"
      engine := { sentinel := "-5", builderMode := true } }
    sources.process.get? TextSetting.sentinel.variableName = some "-5" ∧
      sources.WritesAlone .sentinel ∧
      load sources "test" "svc" arrangement = .ok application ∧
      IsKept "-5" ∧ application.engine.sentinel = "-5" ∧
      application.engine.isOpen (some "-5") = true := by
  intro sources arrangement application
  have hset : sources.process.get? TextSetting.sentinel.variableName = some "-5" := by
    unfold sources
    decide +kernel
  have halone : sources.WritesAlone .sentinel := by
    unfold sources
    decide +kernel
  have hload : load sources "test" "svc" arrangement = .ok application := by
    unfold sources arrangement application
    decide +kernel
  have hkept : IsKept "-5" := by decide +kernel
  obtain ⟨-, hvalue, hopen⟩ := value_eq_variable_iff hset halone hload
  exact ⟨hset, halone, hload, hkept, hvalue.2 hkept, (hopen rfl).2 hkept⟩

/-- A sentinel with zeros in front loses them on the way, and the text that the variable was set to
restricts a component. -/
theorem not_isOpen_variable_zeros :
    let sources : Sources := {
      process := .ofList [("AUDIENCE_ENGINE__NO_RESTRICTION_SENTINEL", "007")] }
    ∃ application, load sources "test" "svc" = .ok application ∧
      application.engine.sentinel = "7" ∧ application.engine.isOpen (some "007") = false := by
  refine ⟨{ serviceName := "svc", environment := "test", engine := { sentinel := "7" } }, ?_, rfl,
    by decide⟩
  decide +kernel

end Application

end Targeting
