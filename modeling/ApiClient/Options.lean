import ApiClient.Error
import ApiClient.Path
import ApiClient.Text.Blank
import ApiClient.Text.Lowercase

/-!
# Options of a run

* `Options`: all that a run depends on besides the metadata.
* `Options.initial`: the defaults; `Options.withFiles` and its neighbours change one option each.
* `Options.withFiles_eq` and its neighbours: what each of these leaves as it is.
* `Options.validate`: refuses options without source or destination, and schema paths that are not
  JSON files inside the destination.
* `Dialect.parse`, `HttpModule.parse`, `OutputFormat.parse`: choices by their names.
-/

namespace ApiClient

/-! ## Choices -/

/-- The dialect of the generated code (`GeneratorKind`). -/
inductive Dialect where
  | angular
  | react
  deriving DecidableEq, Repr

/-- The name of a dialect. -/
def Dialect.keyword : Dialect → String
  | .angular => "angular"
  | .react => "react"

/-- The dialect of a name; a blank name is the first one. -/
def Dialect.parse (text : String) : Except Error Dialect :=
  let name := Text.lower (Text.trim text)
  if name = "angular" ∨ name = "" then .ok .angular
  else if name = "react" then .ok .react
  else .error (.argument (.generator text))

theorem Dialect.parse_keyword (dialect : Dialect) : parse dialect.keyword = .ok dialect := by
  cases dialect <;> rfl

/-- The module that sends requests in the first dialect (`HttpModuleKind`). -/
inductive HttpModule where
  | client
  | legacy
  deriving DecidableEq, Repr

/-- The class of a module. -/
def HttpModule.className : HttpModule → String
  | .client => "HttpClient"
  | .legacy => "Http"

/-- The module of a name; a blank name is the first one. -/
def HttpModule.parse (text : String) : Except Error HttpModule :=
  let name := Text.lower (Text.trim text)
  if ["httpclientmodule", "httpclient", "client", ""].contains name then .ok .client
  else if ["httpmodule", "http", "legacy"].contains name then .ok .legacy
  else .error (.argument (.httpModule text))

theorem HttpModule.parse_className (httpModule : HttpModule) :
    parse httpModule.className = .ok httpModule := by
  cases httpModule <;> rfl

/-- The form of a report. -/
inductive OutputFormat where
  | json
  | text
  | pretty
  deriving DecidableEq, Repr

/-- The name of a form. -/
def OutputFormat.keyword : OutputFormat → String
  | .json => "json"
  | .text => "text"
  | .pretty => "pretty"

/-- The form of a name. -/
def OutputFormat.parse (text : String) : Except Error OutputFormat :=
  let name := Text.lower text
  if name = "json" then .ok .json
  else if name = "text" then .ok .text
  else if name = "pretty" then .ok .pretty
  else .error (.argument (.outputFormat text))

/-! ## Options -/

/-- All that a run depends on besides the metadata. -/
structure Options where
  /-- The directory of the metadata modules. -/
  source : String
  /-- The directory of the generated files. -/
  destination : String
  /-- The patterns of the names of module files. -/
  files : List String
  /-- The names of the base types of controllers. -/
  controllerBases : List String
  /-- The path below which the operations are served; without it no service is generated. -/
  apiPath : Option String
  /-- Models are imported together rather than one by one. -/
  combineImports : Bool
  /-- The service logs errors. -/
  handleErrors : Bool
  /-- The schema manifest is generated. -/
  generateSchema : Bool
  /-- The path of the manifest below the destination. -/
  schemaPath : String
  dialect : Dialect
  httpModule : HttpModule
  deriving DecidableEq, Repr

namespace Options

/-- The default options for a source and a destination. -/
def initial (source destination : String) : Options where
  source
  destination
  files := ["*.client.json"]
  controllerBases := ["ApiController"]
  apiPath := none
  combineImports := false
  handleErrors := true
  generateSchema := false
  schemaPath := "./Schema.json"
  dialect := .angular
  httpModule := .client

/-- Sets the file patterns; an empty list changes nothing (`files` of `OptionsBuilder`). -/
def withFiles (files : List String) (o : Options) : Options :=
  if files.isEmpty then o else { o with files }

/-- Sets the controller bases; an empty list changes nothing (`controller_base_names`). -/
def withControllerBases (controllerBases : List String) (o : Options) : Options :=
  if controllerBases.isEmpty then o else { o with controllerBases }

/-- Sets the API path, without blanks around it and slashes after it; a blank path unsets it
(`api_relative_path`). -/
def withApiPath (path : String) (o : Options) : Options :=
  let trimmed := Text.trim path
  if trimmed.isEmpty then { o with apiPath := none }
  else { o with apiPath := some (String.ofList (Text.dropEnd '/' trimmed.toList)) }

/-- Sets the path of the manifest; a blank path changes nothing (`schema_path`). -/
def withSchemaPath (schemaPath : String) (o : Options) : Options :=
  if Text.isBlankText schemaPath then o else { o with schemaPath }

theorem withFiles_eq (files : List String) (o : Options) :
    o.withFiles files = { o with files := if files.isEmpty then o.files else files } := by
  rw [withFiles]
  split <;> rfl

theorem withControllerBases_eq (bases : List String) (o : Options) : o.withControllerBases bases =
    { o with controllerBases := if bases.isEmpty then o.controllerBases else bases } := by
  rw [withControllerBases]
  split <;> rfl

theorem withApiPath_eq (path : String) (o : Options) : o.withApiPath path =
    { o with apiPath :=
        if (Text.trim path).isEmpty then none
        else some (String.ofList (Text.dropEnd '/' (Text.trim path).toList)) } := by
  rw [withApiPath]
  split <;> rfl

theorem withSchemaPath_eq (path : String) (o : Options) : o.withSchemaPath path =
    { o with schemaPath := if Text.isBlankText path then o.schemaPath else path } := by
  rw [withSchemaPath]
  split <;> rfl

/-- A relative path without drive that never leads to a parent (`is_relative_inside`). -/
def staysInside (path : String) : Bool :=
  let cs := Path.forwardSlashes path
  cs.head? != some '/' && !cs.contains ':' &&
    (Text.splitOn '/' cs).all (· != ['.', '.'])

/-- Why options are refused, if they are. -/
def fault? (o : Options) : Option ConfigFault :=
  if o.source.isEmpty then some .noSource
  else if o.destination.isEmpty then some .noDestination
  else if o.generateSchema && Path.extension? o.schemaPath != some "json" then
    some (.schemaNotJson o.schemaPath)
  else if o.generateSchema && !staysInside o.schemaPath then some (.schemaOutside o.schemaPath)
  else none

/-- Options that a run can work with (`validate`). -/
def validate (o : Options) : Except Error Options :=
  match o.fault? with
  | some fault => .error (.config fault)
  | none => .ok o

theorem validate_eq_ok_iff {o o' : Options} : o.validate = .ok o' ↔ o.fault? = none ∧ o' = o := by
  unfold validate
  cases o.fault? with
  | none => simp [eq_comm]
  | some fault => simp

/-- The absolute source directory (`source_dir`). -/
def sourceDirectory (o : Options) (s : Path.Surroundings) : String :=
  Path.resolve s o.source

/-- The absolute destination directory (`destination_dir`). -/
def destinationDirectory (o : Options) (s : Path.Surroundings) : String :=
  Path.resolve s o.destination

end Options

end ApiClient
