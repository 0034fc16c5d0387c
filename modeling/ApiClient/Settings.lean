import ApiClient.Json.Reader
import ApiClient.Options
import ApiClient.Toml.Parser

/-!
# Settings

A settings document holds options under their names, each of them optional.

* `Settings.ofJson`, `Settings.ofToml`: read a document of either format.
* `Settings.toOptions`: the options of a document, defaults for what it leaves out.
-/

namespace ApiClient

/-- The options that a settings document names. -/
structure Settings where
  source : Option String
  destination : Option String
  files : Option (List String)
  controllerBases : Option (List String)
  apiPath : Option String
  combineImports : Option Bool
  handleErrors : Option Bool
  generateSchema : Option Bool
  schemaPath : Option String
  dialect : Option String
  httpModule : Option String
  deriving DecidableEq, Repr

namespace Settings

/-- Settings that name no option. -/
def blank : Settings :=
  ⟨none, none, none, none, none, none, none, none, none, none, none⟩

/-- What a setting holds, and where it goes. -/
inductive Slot where
  | text (set : Option String → Settings → Settings)
  | texts (set : Option (List String) → Settings → Settings)
  | flag (set : Option Bool → Settings → Settings)

/-- A setting by its key, which has other spellings. -/
structure Entry where
  key : String
  aliases : List String
  slot : Slot

/-- The settings of a document. -/
def entries : List Entry := [
  ⟨"source", ["Source"], .text fun v s => { s with source := v }⟩,
  ⟨"destination", ["Destination"], .text fun v s => { s with destination := v }⟩,
  ⟨"files", ["Files"], .texts fun v s => { s with files := v }⟩,
  ⟨"controllerBaseNames", ["ControllerBaseClassNames", "controllerBaseClassNames"],
    .texts fun v s => { s with controllerBases := v }⟩,
  ⟨"apiRelativePath", ["ApiRelativePath"], .text fun v s => { s with apiPath := v }⟩,
  ⟨"combineImports", ["CombineImports"], .flag fun v s => { s with combineImports := v }⟩,
  ⟨"handleErrors", ["HandleErrors"], .flag fun v s => { s with handleErrors := v }⟩,
  ⟨"generateSchema", ["GenerateSchemaJson", "generateSchemaJson"],
    .flag fun v s => { s with generateSchema := v }⟩,
  ⟨"schemaPath", ["SchemaFilePath", "schemaFilePath"],
    .text fun v s => { s with schemaPath := v }⟩,
  ⟨"generatorKind", ["Generator", "generator"], .text fun v s => { s with dialect := v }⟩,
  ⟨"httpModule", ["HttpModule"], .text fun v s => { s with httpModule := v }⟩]

/-! ## JSON documents -/

/-- A setting as a field of a JSON document. -/
def Entry.field (e : Entry) : Json.Reader.Field Settings :=
  match e.slot with
  | .text set => .optional e.key e.aliases Json.Reader.text set
  | .texts set => .optional e.key e.aliases (Json.Reader.listOf Json.Reader.text) set
  | .flag set => .optional e.key e.aliases Json.Reader.bool set

/-- The fields of a JSON document. -/
def shape : Json.Reader.Shape Settings where
  name := "Settings"
  blank := blank
  fields := entries.map Entry.field

/-- Reads a JSON document (`from_json` of `Settings`). -/
def ofJson (text : String) : Except Error Settings :=
  match Json.Reader.run (Json.Reader.record shape) text with
  | .ok s => .ok s
  | .error fault => .error (.document (.jsonSettings fault))

/-! ## TOML documents -/

/-- Sets a setting to a value, which must be of its kind. -/
def Slot.put (s : Settings) : Slot → Toml.Value → Option Settings
  | .text set, .text v => some (set (some v) s)
  | .texts set, .list items =>
    (items.mapM Toml.Value.text?).map fun texts => set (some texts) s
  | .flag set, .bool v => some (set (some v) s)
  | _, _ => none

/-- Reads the entries of a table into settings; `seen` are the settings that were read before. Keys
that name no setting are skipped, and no setting may be repeated. -/
def ofTable (s : Settings) (seen : List String) : Toml.Table → Option Settings
  | [] => some s
  | (key, value) :: rest =>
    match entries.find? fun e => e.key == key || e.aliases.contains key with
    | none => ofTable s seen rest
    | some e =>
      match value with
      | .value v =>
        if seen.contains e.key then none
        else (e.slot.put s v).bind fun s => ofTable s (e.key :: seen) rest
      | _ => none

/-- Reads a TOML document (`from_toml`). -/
def ofToml (text : String) : Except Error Settings :=
  match (Toml.parse text).bind (ofTable blank []) with
  | some s => .ok s
  | none => .error (.document .tomlSettings)

/-! ## Options -/

/-- A setting that is not blank. -/
def notBlank (setting : Option String) : Option String :=
  setting.filter (!Text.isBlankText ·)

/-- The options of the settings (`into_options`). -/
def toOptions (s : Settings) : Except Error Options := do
  let source ← (notBlank s.source).elim (.error (.config .noSource)) .ok
  let destination ← (notBlank s.destination).elim (.error (.config .noDestination)) .ok
  let o := (Options.initial source destination).withFiles (s.files.getD [])
  let o := o.withControllerBases (s.controllerBases.getD [])
  let o := { o with
    combineImports := s.combineImports.getD false
    handleErrors := s.handleErrors.getD true
    generateSchema := s.generateSchema.getD false }
  let o := o.withSchemaPath (s.schemaPath.getD "")
  let o := s.apiPath.elim o fun path => o.withApiPath path
  let dialect ← s.dialect.elim (.ok o.dialect) Dialect.parse
  let httpModule ← s.httpModule.elim (.ok o.httpModule) HttpModule.parse
  { o with dialect, httpModule }.validate

end Settings

end ApiClient
