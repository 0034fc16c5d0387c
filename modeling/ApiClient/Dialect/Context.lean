import ApiClient.Service

/-!
# Contexts that both dialects share

The parts of template contexts that do not depend on the dialect, and their JSON.
-/

namespace ApiClient

open Json

/-- An import as JSON. -/
def Import.json (i : Import) : Value :=
  .object [("name", .string i.name), ("constructible", .bool i.constructible)]

/-- Imports as JSON. -/
def importsJson (is : List Import) : Value :=
  .array (is.map Import.json)

/-- An enumeration as JSON. -/
def EnumView.json (e : EnumView) : Value :=
  .object [("name", .string e.name),
    ("values", .array (e.values.map fun v =>
      .object [("name", .string v.name), ("value", .int v.value)]))]

/-- A method of a service as templates see it. -/
structure MethodContext where
  name : String
  parameters : String
  returnType : String
  call : String
  /-- What is wrong with the method. -/
  error : Option String
  deriving DecidableEq, Repr

/-- A method as JSON. -/
def MethodContext.json (m : MethodContext) : Value :=
  .object [("name", .string m.name), ("parameters", .string m.parameters),
    ("return_type", .string m.returnType), ("call", .string m.call),
    ("error", .string? m.error)]

/-- A group of a service as templates see it. -/
structure GroupContext where
  name : String
  methods : List MethodContext
  deriving DecidableEq, Repr

/-- A group as JSON. -/
def GroupContext.json (g : GroupContext) : Value :=
  .object [("name", .string g.name), ("methods", .array (g.methods.map MethodContext.json))]

/-- The context of a method whose request is written `call`. -/
def ServiceMethod.context (controller : String) (call : ServiceMethod → String)
    (m : ServiceMethod) : MethodContext where
  name := m.name
  parameters := m.signature
  returnType := m.returns.display
  call := call m
  error :=
    if m.repeated then
      some ("ERROR! The controller '" ++ controller ++ "' has a duplicate method name: '"
        ++ m.operation ++ "'")
    else none

/-- The context of a group (`context` of `FacadeGroup`). -/
def ServiceGroup.context (call : ServiceMethod → String) (g : ServiceGroup) : GroupContext where
  name := g.name
  methods := g.methods.map (ServiceMethod.context g.controller call)

end ApiClient
