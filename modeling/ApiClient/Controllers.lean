import ApiClient.Collections.Distinct
import ApiClient.Mapping
import ApiClient.Operation
import ApiClient.Registry.Inheritance
import ApiClient.Text.Lowercase

/-!
# Controllers

* `Registry.controllers`: the classes whose base has one of the given names, with their operations.
* `Registry.expandParameters`: parameters that are marked to be expanded give way to the properties
  of their types; those written out keep their place before the expanded ones and win over them.
-/

namespace ApiClient.Registry

/-- The short name of a base type (`base_short_name`). -/
def baseName? (r : Registry) : TypeRef → Option String
  | .declared id _ => (r.get? id).map (·.name)
  | .external type _ => some (ExternalKind.shortName type.name)
  | .array _ => none

/-- A class whose base has one of the names. -/
def isController (r : Registry) (bases : List String) (d : TypeDef) : Bool :=
  d.kind = .classType && (d.base.bind r.baseName?).any bases.contains

/-- The type whose properties stand for a parameter, if it is to be expanded. Scalars are not. -/
def expands? (r : Registry) (p : ParameterDef) : Option TypeId :=
  if p.markers.contains .expandInline && !(r.map false p.type).element.isScalar then
    p.type.declaredId?
  else none

/-- The parameters that stand for the properties of a type. -/
def propertyParameters (r : Registry) (id : TypeId) : List Parameter :=
  (r.allProperties id).map fun p => ⟨Text.camelize p.name, p.type⟩

/-- The parameters of a method as clients see them: first those written out, then the properties of
those to be expanded; of one name the first (`expand_parameters`). -/
def expandParameters (r : Registry) (ps : List ParameterDef) : List Parameter :=
  let plain := ps.filterMap fun p =>
    if (r.expands? p).isNone then some ⟨p.name, p.type⟩ else none
  let expanded := ps.flatMap fun p => (r.expands? p).elim [] r.propertyParameters
  distinctBy Parameter.name [] (plain ++ expanded)

/-- The operation of a method of a group (`build_operation`). -/
def operation (r : Registry) (group : String) (m : MethodDef) : Operation where
  name := m.name
  verb := HttpVerb.classify m.name m.markers
  group
  parameters := r.expandParameters m.parameters
  returns := m.returns

/-- The controller that a class is. -/
def controller (r : Registry) (id : TypeId) (d : TypeDef) : Controller where
  id
  name := d.name
  group := groupName d.name
  operations := d.methods.map (r.operation (groupName d.name))

/-- The controllers by name, then by qualified name and module (`find_controllers`). -/
def controllers (r : Registry) (bases : List String) : List Controller :=
  let found := r.ids.filterMap fun id =>
    match r.get? id with
    | some d => if r.isController bases d then some (id, d) else none
    | none => none
  let found := Text.sortByText (·.2.name) (Text.sortByTexts (·.2.key) found)
  found.map fun (id, d) => r.controller id d

end ApiClient.Registry
