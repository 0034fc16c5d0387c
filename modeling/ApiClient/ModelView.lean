import ApiClient.Json.Value
import ApiClient.Registry.Inheritance
import ApiClient.Text.Lowercase
import ApiClient.TypeScript.Literal
import ApiClient.TypeScript.Response

/-!
# Views of models

A `ModelView` holds what every dialect needs to know of a class: its mapped properties by name, what
it imports, and its constants. An `EnumView` holds the members of an enumeration by value.

Properties of an excluded type are left out. A class whose base is a model declares its own
properties only; any other declares the inherited ones too.
-/

namespace ApiClient

/-- A model that generated code imports (`ImportRef`). -/
structure Import where
  name : String
  constructible : Bool
  deriving DecidableEq, Repr

/-- Imports with one more, which takes the place of one of its name. -/
def Import.insert (i : Import) (is : List Import) : List Import :=
  i :: is.filter (·.name != i.name)

/-- The imports that are there when models are inserted one after the other, by name. -/
def Import.collect (named : List Import) : List Import :=
  Text.sortByText Import.name (named.foldl (fun is i => i.insert is) [])

/-- A property with its mapped type. -/
structure MappedProperty where
  name : String
  type : MappedType
  /-- Instances can be made of its model. -/
  constructible : Bool
  deriving DecidableEq, Repr

/-- A constant as generated code writes it. -/
structure MappedConstant where
  name : String
  typeName : String
  value : String
  deriving DecidableEq, Repr

/-- What dialects need to know of a class. -/
structure ModelView where
  definition : TypeDef
  /-- The base, if it is a model. -/
  base : Option TypeDef
  imports : List Import
  /-- The properties that the generated type declares. -/
  declared : List MappedProperty
  /-- All properties, inherited ones included. -/
  all : List MappedProperty
  constants : List MappedConstant

namespace Registry

/-- The model of a type as an import. -/
def importOf? (r : Registry) (t : MappedType) : Option Import :=
  t.model?.map fun (id, name) => ⟨name, r.isConstructible id⟩

/-- A property with its mapped type, unless that is excluded. -/
def mappedProperty? (r : Registry) (p : PropertyDef) : Option MappedProperty :=
  let type := r.mapProperty p
  if type.isExcluded then none
  else some ⟨p.name, type, (type.model?.map fun m => r.isConstructible m.1).getD false⟩

/-- Properties with their mapped types, by name (`map_properties`). -/
def mappedProperties (r : Registry) (ps : List PropertyDef) : List MappedProperty :=
  Text.sortByText MappedProperty.name (ps.filterMap r.mappedProperty?)

/-- A constant as generated code writes it: a text as a literal, a truth value in lower case
(`mapped_constant`). -/
def mappedConstant (c : ConstantDef) (t : MappedType) : MappedConstant where
  name := c.name
  typeName := t.display
  value :=
    match t with
    | .primitive .string => TypeScript.quote c.value
    | .primitive .boolean => Text.lower c.value
    | _ => c.value

/-- The numbers and texts among the literals of a class. -/
def literalConstant? (r : Registry) (c : ConstantDef) : Option MappedConstant :=
  if c.readonly then none
  else
    match r.map false c.type with
    | .primitive .number => some (mappedConstant c (.primitive .number))
    | .primitive .string => some (mappedConstant c (.primitive .string))
    | _ => none

/-- The readonly statics of a class, unless their type is excluded. -/
def readonlyConstant? (r : Registry) (c : ConstantDef) : Option MappedConstant :=
  let type := r.map false c.type
  if c.readonly && !type.isExcluded then some (mappedConstant c type) else none

/-- The constants of a class: its literals by name, then its readonly statics by name if the class
is marked to emit them (`map_constants`). -/
def mappedConstants (r : Registry) (d : TypeDef) : List MappedConstant :=
  let literals := Text.sortByText MappedConstant.name (d.constants.filterMap r.literalConstant?)
  let readonly := Text.sortByText MappedConstant.name (d.constants.filterMap r.readonlyConstant?)
  literals ++ if d.hasMarker .emitStaticReadonly then readonly else []

/-- The view of a class (`new` of `ModelView`). -/
def view (r : Registry) (id : TypeId) (d : TypeDef) : ModelView :=
  let base := (r.modelBase? id).bind r.get?
  let all := r.mappedProperties (r.allProperties id)
  let mentioned := all.filterMap fun p =>
    match p.type.model? with
    | some (child, name) => if child = id then none else some ⟨name, r.isConstructible child⟩
    | none => none
  { definition := d
    base
    imports :=
      Import.collect ((base.map fun b => ⟨b.name, b.isConstructible⟩).toList ++ mentioned)
    declared := if base.isSome then r.mappedProperties d.properties else all
    all
    constants := r.mappedConstants d }

end Registry

namespace ModelView

/-- Some property is a date or an array of dates (`uses_moment`). -/
def usesMoment (v : ModelView) : Bool :=
  v.all.any (·.type.mentionsDate)

/-- The properties whose type is a model that can be instantiated, with the model
(`model_properties`). -/
def modelProperties (v : ModelView) : List (String × String) :=
  v.all.filterMap fun p =>
    match p.type with
    | .model _ name => if p.constructible then some (p.name, name) else none
    | _ => none

/-- The properties whose type is an array of such models (`model_array_properties`). -/
def modelArrayProperties (v : ModelView) : List (String × String) :=
  v.all.filterMap fun p =>
    match p.type with
    | .array (.model _ name) => if p.constructible then some (p.name, name) else none
    | _ => none

/-- The properties whose type is a date, in universal time or not (`date_properties`). -/
def dateProperties (v : ModelView) (utc : Bool) : List String :=
  v.all.filterMap fun p => if p.type = .date utc then some p.name else none

end ModelView

/-- An enumeration with its members by value. -/
structure EnumView where
  name : String
  values : List EnumValue
  deriving DecidableEq, Repr

/-- The view of an enumeration; members of one value keep their order (`new` of `EnumContext`). -/
def TypeDef.enumView (d : TypeDef) : EnumView where
  name := d.name
  values := d.values.mergeSort fun a b => decide (a.value ≤ b.value)

end ApiClient
