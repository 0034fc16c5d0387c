import ApiClient.Collections.Distinct
import ApiClient.Registry

/-!
# Inheritance

* `Registry.baseId?`, `modelBase?`: the declared base of a type, and the base that is a model.
* `Registry.ancestors`: the base chain, nearest first, up to an external base or a repeated type.
* `Registry.derives`: a type derives from another, at once or through others.
* `Registry.allProperties`: the properties of a type and its ancestors; of one name the nearest.
-/

namespace ApiClient.Registry

/-- The declared base of a type (`base_id`). -/
def baseId? (r : Registry) (id : TypeId) : Option TypeId :=
  match r.get? id with
  | some d => d.base.bind TypeRef.declaredId?
  | none => none

/-- The base of a type that is generated as a class of its own: a model that is not ignored
(`model_base`). -/
def modelBase? (r : Registry) (id : TypeId) : Option TypeId :=
  (r.baseId? id).filter fun base => r.isModel base && !r.isIgnored base

/-- The base chain above a type until it meets a `seen` type (the loop of `ancestors`). There are no
more steps than types, which bounds the fuel. -/
def chain (r : Registry) : Nat → List TypeId → TypeId → List TypeId
  | 0, _, _ => []
  | fuel + 1, seen, id =>
    match r.baseId? id with
    | none => []
    | some base =>
      if base ∈ seen then [] else base :: chain r fuel (base :: seen) base

/-- The base chain of a type, nearest first (`ancestors`). It ends at an external base or before a
repeated type. -/
def ancestors (r : Registry) (id : TypeId) : List TypeId :=
  r.chain (r.types.length + 1) [id] id

/-- The type derives from the other one (`is_subtype_of`). No type derives from itself. -/
def derives (r : Registry) (sub ancestor : TypeId) : Bool :=
  (r.ancestors sub).contains ancestor

/-- The properties that a type declares itself. -/
def ownProperties (r : Registry) (id : TypeId) : List PropertyDef :=
  match r.get? id with
  | some d => d.properties
  | none => []

/-- The properties of a type with the inherited ones (`all_properties`). A property hides those of
its name that are declared above it or after it. -/
def allProperties (r : Registry) (id : TypeId) : List PropertyDef :=
  distinctBy PropertyDef.name [] ((id :: r.ancestors id).flatMap r.ownProperties)

end ApiClient.Registry
