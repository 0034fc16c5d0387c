import ApiClient.Registry

/-!
# Mapped types

`Registry.map` turns a reference into the type that generated code uses:

* an ignored type is excluded, and so is all that wraps it;
* models and enumerations stand for themselves;
* truth values, numbers and texts are the three primitives; dates are moments;
* arrays and collections of one element type are arrays;
* any other type of one argument, a nullable one among them, is that argument;
* all else is `any`.
-/

namespace ApiClient

/-- The three primitives. -/
inductive Primitive where
  | boolean
  | number
  | string
  deriving DecidableEq, Repr

/-- The keyword of a primitive. -/
def Primitive.keyword : Primitive → String
  | .boolean => "boolean"
  | .number => "number"
  | .string => "string"

/-- The type that generated code uses. -/
inductive MappedType where
  /-- Whatever mentions the type is dropped. -/
  | excluded
  | primitive (kind : Primitive)
  | date (utc : Bool)
  | array (element : MappedType)
  /-- A model or enumeration, by its short name. -/
  | model (id : TypeId) (name : String)
  | any
  deriving DecidableEq, Repr

namespace MappedType

/-- The spelling of a type in generated code (`typescript_name`). -/
def display : MappedType → String
  | .excluded | .any => "any"
  | .primitive kind => kind.keyword
  | .date _ => "moment.Moment"
  | .array element => element.display ++ "[]"
  | .model _ name => name

/-- The value that a declared field starts with. -/
def initializer : MappedType → Option String
  | .array _ => some "[]"
  | _ => none

/-- The type below all arrays. -/
def element : MappedType → MappedType
  | .array t => t.element
  | t => t

/-- The type is a date or an array of dates (`requires_date_import`). -/
def mentionsDate (t : MappedType) : Bool :=
  match t.element with
  | .date _ => true
  | _ => false

/-- The type is excluded. -/
def isExcluded : MappedType → Bool
  | .excluded => true
  | _ => false

/-- Primitives and dates. -/
def isScalar : MappedType → Bool
  | .primitive _ | .date _ => true
  | _ => false

/-- The type is an array. -/
def isArray : MappedType → Bool
  | .array _ => true
  | _ => false

/-- The model below all arrays (`model`). -/
def model? (t : MappedType) : Option (TypeId × String) :=
  match t.element with
  | .model id name => some (id, name)
  | _ => none

/-- An array of a type; no array holds an excluded type (`array_of`). -/
def arrayOf (t : MappedType) : MappedType :=
  if t.isExcluded then .excluded else .array t

end MappedType

namespace Registry

mutual
/-- The mapped type of a reference; its dates are in universal time if `utc` holds (`map_inner` of
`TypeMapper`). -/
def map (r : Registry) (utc : Bool) : TypeRef → MappedType
  | .array element => (r.map utc element).arrayOf
  | .declared id args =>
    if r.isIgnored id then .excluded
    else if r.isModelOrEnum id then .model id ((r.get? id).elim "" (·.name))
    else r.mapOnly utc args
  | .external type args =>
    match type.kind with
    | .boolean => .primitive .boolean
    | .number => .primitive .number
    | .text => .primitive .string
    | .sequence => r.mapElement utc args
    | .map => .any
    | .date => .date utc
    | .nullable | .task | .void | .object | .other => r.mapOnly utc args
/-- The mapped type of an only argument (`unwrap_single`). -/
def mapOnly (r : Registry) (utc : Bool) : List TypeRef → MappedType
  | [t] => r.map utc t
  | _ => .any
/-- An array of an only argument. -/
def mapElement (r : Registry) (utc : Bool) : List TypeRef → MappedType
  | [t] => (r.map utc t).arrayOf
  | _ => .any
end

/-- The mapped type of a property; its own marker decides on universal time (`map_property`). -/
def mapProperty (r : Registry) (p : PropertyDef) : MappedType :=
  r.map (p.markers.contains .utcDate) p.type

end Registry

end ApiClient
