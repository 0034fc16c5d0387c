import ApiClient.Dialect.Context
import ApiClient.Options

/-!
# Classes and observables

The first dialect: a class for each model, whose constructor revives its fields, and a service whose
methods give observables.

* `Angular.hydrations`: the statements that revive fields.
* `Angular.call`: the request of a method.
* `Angular.classContext`, `serviceContext`: what the templates are filled with.
-/

namespace ApiClient.Angular

open Json

/-- A field of a class. -/
structure FieldContext where
  name : String
  typeName : String
  initializer : Option String
  deriving DecidableEq, Repr

/-- What the template of a class is filled with. -/
structure ClassContext where
  name : String
  isAbstract : Bool
  base : Option String
  usesMoment : Bool
  combineImports : Bool
  hasHeader : Bool
  imports : List Import
  constants : List MappedConstant
  properties : List FieldContext
  hydrations : List String
  deriving DecidableEq, Repr

/-- What the template of the service is filled with. -/
structure ServiceContext where
  legacyHttp : Bool
  handleErrors : Bool
  usesMoment : Bool
  combineImports : Bool
  imports : List Import
  apiPath : String
  groups : List GroupContext
  deriving DecidableEq, Repr

/-- A constant as JSON. -/
def constantJson (c : MappedConstant) : Value :=
  .object [("name", .string c.name), ("type_name", .string c.typeName), ("value", .string c.value)]

/-- A field as JSON. -/
def FieldContext.json (f : FieldContext) : Value :=
  .object [("name", .string f.name), ("type_name", .string f.typeName),
    ("initializer", .string? f.initializer)]

/-- The context of a class as JSON. -/
def ClassContext.json (c : ClassContext) : Value :=
  .object [("name", .string c.name), ("is_abstract", .bool c.isAbstract),
    ("base", .string? c.base), ("uses_moment", .bool c.usesMoment),
    ("combine_imports", .bool c.combineImports), ("has_header", .bool c.hasHeader),
    ("imports", importsJson c.imports), ("constants", .array (c.constants.map constantJson)),
    ("properties", .array (c.properties.map FieldContext.json)),
    ("hydrations", .strings c.hydrations)]

/-- The context of the service as JSON. -/
def ServiceContext.json (c : ServiceContext) : Value :=
  .object [("legacy_http", .bool c.legacyHttp), ("handle_errors", .bool c.handleErrors),
    ("uses_moment", .bool c.usesMoment), ("combine_imports", .bool c.combineImports),
    ("imports", importsJson c.imports), ("api_relative_path", .string c.apiPath),
    ("groups", .array (c.groups.map GroupContext.json))]

/-! ## Classes -/

/-- The statement that gives a field another value if it has one. -/
def hydration (field value : String) : String :=
  "if (fields." ++ field ++ ") \x7b fields." ++ field ++ " = " ++ value ++ "; \x7d"

/-- The statements that revive fields: models, dates, dates in universal time, arrays of models
(`hydrations`). -/
def hydrations (v : ModelView) : List String :=
  (v.modelProperties.map fun (p, m) => hydration p ("new " ++ m ++ "(fields." ++ p ++ ")"))
    ++ ((v.dateProperties false).map fun p => hydration p ("moment(fields." ++ p ++ ")"))
    ++ ((v.dateProperties true).map fun p => hydration p ("moment.utc(fields." ++ p ++ ")"))
    ++ (v.modelArrayProperties.map fun (p, m) =>
      hydration p ("fields." ++ p ++ ".map(x => new " ++ m ++ "(x))"))

/-- The context of a class (`class_context`). -/
def classContext (o : Options) (v : ModelView) : ClassContext where
  name := v.definition.name
  isAbstract := v.definition.isAbstract
  base := v.base.map (·.name)
  usesMoment := v.usesMoment
  combineImports := o.combineImports
  hasHeader := v.usesMoment || !v.imports.isEmpty
  imports := v.imports
  constants := v.constants
  properties := v.declared.map fun p => ⟨p.name, p.type.display, p.type.initializer⟩
  hydrations := hydrations v

/-! ## Service -/

/-- The request of a method of the legacy module. -/
def legacyCall (m : ServiceMethod) : String :=
  m.verb.keyword ++ "(\x60" ++ m.url ++ "\x60" ++ m.body ++ ").pipe(map((res: Response) => "
    ++ TypeScript.legacyMapper m.construction ++ "), catchError(this.handleError))"

/-- The request of a method of the client module. -/
def clientCall (m : ServiceMethod) : String :=
  m.verb.keyword ++ TypeScript.typeArgument m.returns ++ "(\x60" ++ m.url ++ "\x60" ++ m.body
    ++ TypeScript.closeCall m.returns ++ "." ++ TypeScript.clientPipe m.construction

/-- The context of the service (`service_context`). -/
def serviceContext (o : Options) (s : Service) (apiPath : String) : ServiceContext where
  legacyHttp := o.httpModule = .legacy
  handleErrors := o.handleErrors
  usesMoment := s.usesMoment
  combineImports := o.combineImports
  imports := s.imports
  apiPath
  groups :=
    s.groups.map (ServiceGroup.context (if o.httpModule = .legacy then legacyCall else clientCall))

end ApiClient.Angular
