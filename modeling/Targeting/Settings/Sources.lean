import Targeting.Settings.Toml.Document

/-!
# Sources of settings

Settings come in layers, each over the one before: the names of the service and of the environment
that were asked for, the files `default`, of the environment and of the service, and the variables
of the process.

Only the order of the layers is fixed. The entries of one layer come in any order, and so do the
variables. Where two entries of a layer write to the same part, either of them may have the last
word.

## Main definitions

* `Targeting.Files`, `Targeting.Sources` — the files and variables that settings come from.
* `Targeting.Arrangement` — the orders that are not fixed.
* `Targeting.Sources.file?` — the text of a settings file.
* `Targeting.Sources.layers` — the layers; `Targeting.Setting.overlay` — a layer over others.
-/

set_option autoImplicit false

namespace Targeting

/-! ## Files -/

/-- The files that settings are read from. What a path means is for the system to say: it may lead
through other folders and over links, or begin at the root. -/
structure Files where
  /-- The text of the file to which a path leads from the folder of the settings. -/
  textAt? : String → Option String

namespace Files

/-- The steps of a path: names, and two points for a step back. -/
def steps (path : String) : List String :=
  ((path.toList.splitOn '/').map String.ofList).filter fun part => part ≠ "" && part ≠ "."

/-- The place to which steps lead from a place, the last name of a place being its first. Every
place on the way must be a folder, and nothing is known of what lies above the first one. -/
def place? (isFolder : List String → Bool) : List String → List String → Option (List String)
  | place, [] => some place
  | place, ".." :: steps =>
    match place with
    | [] => none
    | _ :: above => if isFolder place then place? isFolder above steps else none
  | place, name :: steps => if isFolder place then place? isFolder (name :: place) steps else none

/-- The files of a folder and the folders in it, by their names. -/
def ofFolder (folder : Dict String) : Files where
  textAt? path :=
    let files := folder.entries.map fun (name, text) => ((steps name).reverse, text)
    let isFolder := fun place =>
      place.isEmpty || files.any fun file => place ≠ file.1 && place.isSuffixOf file.1
    if path.toList.head? = some '/' then none
    else (place? isFolder [] (steps path)).bind fun place =>
      (files.find? (·.1 = place)).map (·.2)

instance : Coe (Dict String) Files := ⟨ofFolder⟩

instance : Inhabited Files := ⟨ofFolder ∅⟩

end Files

/-! ## Sources -/

/-- The files and variables that settings come from. -/
structure Sources where
  files : Files := .ofFolder ∅
  /-- The variables of the process. -/
  process : Dict String := ∅
deriving Inhabited

/-- Why settings cannot be loaded: a file is not TOML, or a setting is of another kind. -/
inductive SettingsError where
  | unreadable (file : String)
  | unsuitable (key : String)
deriving DecidableEq, Inhabited

/-! ## Layers -/

/-- A layer of settings: values for the parts at some paths. -/
abbrev Layer := List (List Step × Setting)

/-- A layer over the settings that were there. -/
def Setting.overlay (below : Setting) (layer : Layer) : Setting :=
  layer.foldl (fun below (path, value) => update value path below) below

/-- The layer of keys with values. -/
def Layer.ofEntries (entries : List (String × Setting)) : Layer :=
  entries.map fun (key, value) => (keyPath key, value)

/-! ## Orders -/

/-- The layers whose entries come in any order. -/
inductive Tier where
  | common
  | environment
  | service
  | process
deriving DecidableEq, Repr, Inhabited

/-- The orders that are not fixed: that of the variables of a process, and in each layer that of its
entries. -/
structure Arrangement where
  process : List (String × String) → List (String × String)
  entries : Tier → List (String × Setting) → List (String × Setting)
  /-- All variables come, each of them once. -/
  process_perm : ∀ list, (process list).Perm list
  /-- All entries of a layer come, each of them once. -/
  entries_perm : ∀ tier list, (entries tier list).Perm list

/-- The arrangement in the order of the names. -/
def Arrangement.sorted : Arrangement where
  process list := list
  entries _ list := list
  process_perm _ := .refl _
  entries_perm _ _ := .refl _

instance : Inhabited Arrangement := ⟨.sorted⟩

/-! ## Settings files -/

/-- The ending of the names of settings files. -/
def fileEnding : String := ".toml"

/-- Whether the file at a path has a name before its ending. -/
def hasName (path : String) : Bool := (path.toList.splitOn '/').getLast? ≠ some fileEnding.toList

/-- The layer that the text of a file holds, its entries in an order. A mark of the byte order may
stand in front of the text. -/
def Layer.ofFile (order : List (String × Setting) → List (String × Setting)) (file text : String) :
    Except SettingsError Layer :=
  (Toml.read? (String.ofList (Toml.dropMark text.toList))).elim (.error (.unreadable file))
    fun entries => .ok (.ofEntries (order entries))

namespace Sources

/-- The text of the settings file of a name, to which the ending is added once or, if there is no
such file, twice. A file whose whole name is the ending is not read. -/
def file? (sources : Sources) (name : String) : Option String :=
  let textAt? := sources.files.textAt?
  (textAt? (name ++ fileEnding)).elim (textAt? (name ++ fileEnding ++ fileEnding)) fun text =>
    if hasName (name ++ fileEnding) then some text else none

/-- The layer of the file of a name, empty if there is no such file. -/
def fileLayer (sources : Sources) (arrangement : Arrangement) (tier : Tier) (name : String) :
    Except SettingsError Layer :=
  (sources.file? name).elim (.ok []) (Layer.ofFile (arrangement.entries tier) name)

end Sources

/-! ## Variables -/

/-- What the text of a variable means: a truth value in any case, a whole number of 64 bits, a
number with a fraction, or else the text itself. -/
def Setting.ofVariable (text : String) : Setting :=
  match readTruth? text, (integer? text.toList).filter fitsInt64, Extended.ofText? text with
  | some b, _, _ => .truth b
  | none, some n, _ => .int n
  | none, none, some x => .real x
  | none, none, none => .text text

/-- The characters at the start of the name of a variable that is a setting. -/
def variableStart : String := "audience_"

/-- The small letter of a letter, if it is one of ASCII. The sign of the kelvin is a capital k. -/
def smallLetter (c : Char) : Char := if c = '\u212a' then 'k' else c.toLower

/-- The characters of a key after two underscores in a row have become a point. -/
def withPoints : List Char → List Char
  | '_' :: '_' :: rest => '.' :: withPoints rest
  | c :: rest => c :: withPoints rest
  | [] => []

/-- The key of a variable in any case; two underscores stand for a point. -/
def variableKey? (name : String) : Option String :=
  let name := name.toList.map smallLetter
  if variableStart.toList.isPrefixOf name then
    some (String.ofList (withPoints (name.drop variableStart.toList.length)))
  else none

/-- The entry of a variable with a text, if it is a setting. -/
def variableSetting? : String × String → Option (String × Setting)
  | (name, text) => (variableKey? name).map fun key => (key, .ofVariable text)

namespace Sources

/-- The layer of the variables. Of several with one key the last counts. -/
def variableLayer (sources : Sources) (arrangement : Arrangement) : Layer :=
  let listed := (arrangement.process sources.process.entries).filterMap variableSetting?
  .ofEntries (arrangement.entries .process (Dict.ofList listed).entries)

/-! ## All layers -/

/-- The layer of the names that were asked for. -/
def named (environment service : String) : Layer :=
  .ofEntries [("service_name", .text service), ("environment", .text environment)]

/-- The layers of an environment and a service, the lowest first. -/
def layers (sources : Sources) (environment service : String) (arrangement : Arrangement) :
    Except SettingsError (List Layer) := do
  return [named environment service, ← sources.fileLayer arrangement .common "default",
    ← sources.fileLayer arrangement .environment environment,
    ← sources.fileLayer arrangement .service service, sources.variableLayer arrangement]

/-- The environment that the variables name. -/
def environment (sources : Sources) : String :=
  (sources.process.get? "AUDIENCE_ENV").getD "development"

end Sources

end Targeting
