import ApiClient.Disk.Fault
import ApiClient.Json.Fault

/-!
# Errors

* `Error`: what can go wrong between the settings and the generated code, each by its cause.
* `Error.message`: the wording.
* `Error.chain`: the wording with that of the causes below it.
* `Error.isConfig` and its neighbours: the classes that the exit code depends on.
-/

namespace ApiClient

/-- Why options are refused. -/
inductive ConfigFault where
  | noSource
  | noDestination
  | schemaNotJson (path : String)
  | schemaOutside (path : String)
  | noSourceDirectory (directory : String)
  | other (message : String)
  deriving DecidableEq, Repr

/-- The wording of a fault in the options. -/
def ConfigFault.message : ConfigFault → String
  | .noSource => "Source is null or empty in options."
  | .noDestination => "Destination is null or empty in options."
  | .schemaNotJson path =>
    "SchemaPath '" ++ path ++ "' is not the expected format. Example: './Schema.json'"
  | .schemaOutside path =>
    "SchemaPath '" ++ path ++ "' must be relative to the destination and stay inside it."
  | .noSourceDirectory directory => "Source directory " ++ directory ++ " does not exist"
  | .other message => message

/-- Why a document cannot be read. -/
inductive DocumentFault where
  | jsonSettings (fault : Json.Fault)
  | tomlSettings
  | metadata (fault : Json.Fault)
  | other (message : String)

/-- The wording of a fault in a document. -/
def DocumentFault.message : DocumentFault → String
  | .jsonSettings fault => "Failed to parse json settings: " ++ fault.message
  | .tomlSettings => "Failed to parse toml settings: malformed TOML"
  | .metadata fault => fault.message
  | .other message => message

/-- The fault of the JSON text below a fault in a document. -/
def DocumentFault.json? : DocumentFault → Option Json.Fault
  | .jsonSettings fault | .metadata fault => some fault
  | _ => none

/-- Why a module is refused. -/
inductive ModuleFault where
  | alreadyLoaded
  | blankTypeName
  | declaredTwice (type : String)
  | unreadable (fault : DocumentFault)
  | other (message : String)

/-- The first words of a fault in a document. -/
def documentMessage (fault : DocumentFault) : String :=
  "Serialization error: " ++ fault.message

/-- The wording of a fault in a module. -/
def ModuleFault.message : ModuleFault → String
  | .alreadyLoaded => "a module with this name is already loaded"
  | .blankTypeName => "a type has an empty name"
  | .declaredTwice type => "type '" ++ type ++ "' is declared twice"
  | .unreadable fault => documentMessage fault
  | .other message => message

/-- Why an argument is refused. -/
inductive ArgumentFault where
  | generator (text : String)
  | httpModule (text : String)
  | outputFormat (text : String)
  | filePattern (text : String)
  | other (message : String)
  deriving DecidableEq, Repr

/-- The wording of a bad argument. -/
def ArgumentFault.message : ArgumentFault → String
  | .generator text => "invalid generator: '" ++ text ++ "' (expected: angular or react)"
  | .httpModule text =>
    "invalid http module: '" ++ text ++ "' (expected: HttpClientModule or HttpModule)"
  | .outputFormat text =>
    "invalid output format: '" ++ text ++ "' (expected: json, text, or pretty)"
  | .filePattern text => "invalid file pattern: '" ++ text ++ "'"
  | .other message => message

/-- What can go wrong. -/
inductive Error where
  | config (fault : ConfigFault)
  | settingsNotFound (path : String)
  | document (fault : DocumentFault)
  | moduleLoad (module : String) (fault : ModuleFault)
  | typeExpression (text reason : String)
  | render (artifact message : String)
  | schemaDiverged (passes : Nat)
  | io (path : String) (fault : Disk.Fault)
  | argument (fault : ArgumentFault)

namespace Error

/-- The error of a text that is no type expression. -/
def ofTypeExpr (text : String) (fault : TypeExpr.Fault) : Error :=
  .typeExpression text (fault.reason text.toList)

/-- The wording of an error. -/
def message : Error → String
  | .config fault => "Configuration error: " ++ fault.message
  | .settingsNotFound path => "Settings file " ++ path ++ " does not exist"
  | .document fault => documentMessage fault
  | .moduleLoad module fault => "Failed to load module '" ++ module ++ "': " ++ fault.message
  | .typeExpression text reason => Json.typeExpressionMessage text reason
  | .render artifact message => "Failed to render " ++ artifact ++ ": " ++ message
  | .schemaDiverged passes =>
    "Schema generator is caught in a loop after " ++ toString passes ++ " passes"
  | .io path fault => "I/O error at " ++ path ++ ": " ++ fault.message
  | .argument fault => "Invalid argument: " ++ fault.message

/-- The wordings of an error and of the causes below it. -/
def chain (e : Error) : List String :=
  match e with
  | .io _ fault => [e.message, fault.message]
  | .document fault =>
    match fault.json? with
    | some json => [e.message, json.message]
    | none => [e.message]
  | e => [e.message]

/-- Errors of the settings, which stop a run before any output. -/
def isConfig : Error → Bool
  | .config _ | .settingsNotFound _ | .document _ | .argument _ => true
  | _ => false

/-- Errors of one module, which leave it out of a run. -/
def isModule : Error → Bool
  | .moduleLoad _ _ | .typeExpression _ _ => true
  | _ => false

/-- Errors of rendering. -/
def isRender : Error → Bool
  | .render _ _ => true
  | _ => false

/-- The schema does not close. -/
def isSchemaDivergence : Error → Bool
  | .schemaDiverged _ => true
  | _ => false

/-- The exit code of a run that ends with the error (`for_error`). -/
def exitCode (e : Error) : Nat :=
  if e.isConfig then 2 else 1

end Error

end ApiClient
