import ApiClient.Dialect.Context
import ApiClient.Options

/-!
# Interfaces and promises

The second dialect: an interface for each model with a function that revives it, and a service whose
methods give promises.

* `React.segments`: the members of a revived object.
* `React.call`: the request of a method.
* `React.interfaceContext`, `serviceContext`: what the templates are filled with.
-/

namespace ApiClient.React

open Json

/-- A member of an interface. -/
structure MemberContext where
  name : String
  typeName : String
  deriving DecidableEq, Repr

/-- What the template of an interface is filled with. -/
structure InterfaceContext where
  name : String
  base : Option String
  usesMoment : Bool
  combineImports : Bool
  hasHeader : Bool
  imports : List Import
  properties : List MemberContext
  /-- A function revives the interface. -/
  factory : Bool
  /-- The base that has such a function. -/
  baseFactory : Option String
  segments : List String
  deriving DecidableEq, Repr

/-- What the template of the service is filled with. -/
structure ServiceContext where
  usesMoment : Bool
  combineImports : Bool
  imports : List Import
  apiPath : String
  groups : List GroupContext
  deriving DecidableEq, Repr

/-- A member as JSON. -/
def MemberContext.json (m : MemberContext) : Value :=
  .object [("name", .string m.name), ("type_name", .string m.typeName)]

/-- The context of an interface as JSON. -/
def InterfaceContext.json (c : InterfaceContext) : Value :=
  .object [("name", .string c.name), ("base", .string? c.base),
    ("uses_moment", .bool c.usesMoment), ("combine_imports", .bool c.combineImports),
    ("has_header", .bool c.hasHeader), ("imports", importsJson c.imports),
    ("properties", .array (c.properties.map MemberContext.json)), ("factory", .bool c.factory),
    ("base_factory", .string? c.baseFactory), ("segments", .strings c.segments)]

/-- The context of the service as JSON. -/
def ServiceContext.json (c : ServiceContext) : Value :=
  .object [("uses_moment", .bool c.usesMoment), ("combine_imports", .bool c.combineImports),
    ("imports", importsJson c.imports), ("api_relative_path", .string c.apiPath),
    ("groups", .array (c.groups.map GroupContext.json))]

/-! ## Interfaces -/

/-- The member of a revived object that has another value if it has one. -/
def segment (property value : String) : String :=
  property ++ ": obj." ++ property ++ " && " ++ value

/-- The members of a revived object: dates, dates in universal time, models, arrays of models
(`segments`). -/
def segments (v : ModelView) : List String :=
  ((v.dateProperties false).map fun p => segment p ("moment(obj." ++ p ++ ")"))
    ++ ((v.dateProperties true).map fun p => segment p ("moment.utc(obj." ++ p ++ ")"))
    ++ (v.modelProperties.map fun (p, m) => segment p (m ++ "_fromJsonObj(obj." ++ p ++ ")"))
    ++ (v.modelArrayProperties.map fun (p, m) =>
      segment p ("obj." ++ p ++ ".map((x: any) => " ++ m ++ "_fromJsonObj(x))"))

/-- The context of an interface (`interface_context`). -/
def interfaceContext (o : Options) (v : ModelView) : InterfaceContext where
  name := v.definition.name
  base := v.base.map (·.name)
  usesMoment := v.usesMoment
  combineImports := o.combineImports
  hasHeader := v.usesMoment || !v.imports.isEmpty
  imports := v.imports
  properties := v.declared.map fun p => ⟨p.name, p.type.display⟩
  factory := v.definition.isConstructible
  baseFactory := (v.base.filter TypeDef.isConstructible).map (·.name)
  segments := segments v

/-! ## Service -/

/-- The request of a method (`call`). -/
def call (m : ServiceMethod) : String :=
  m.verb.keyword ++ "<" ++ m.returns.display ++ ">(\x60" ++ m.url ++ "\x60" ++ m.body ++ ")"
    ++ TypeScript.promiseThen m.construction

/-- The context of the service (`service_context`). -/
def serviceContext (o : Options) (s : Service) (apiPath : String) : ServiceContext where
  usesMoment := s.usesMoment
  combineImports := o.combineImports
  imports := s.imports
  apiPath
  groups := s.groups.map (ServiceGroup.context call)

end ApiClient.React
