import ApiClient.Collections.Reach
import ApiClient.ModelSet
import ApiClient.Operation
import ApiClient.Registry.Inheritance

/-!
# Discovery of models

The models to generate are those that operations mention and what those need in turn.

* `Registry.modelTypes`: the models that a reference mentions.
* `Registry.seeds`: the models that operations mention.
* `Registry.derivedClosure`: a set with the models of the same module that derive from its members.
* `Registry.discover`: the derived closure of the seeds, with the models that properties mention and
  the bases that are models, as long as there are new ones.
-/

namespace ApiClient.Registry

/-- A model or enumeration that is not ignored (`is_candidate`). -/
def isCandidate (r : Registry) (id : TypeId) : Bool :=
  r.isModelOrEnum id && !r.isIgnored id

mutual
/-- The models that a reference mentions, each as often as it is mentioned (`collect_model_types`).
An ignored type and its arguments mention none; any other brings its model base along. -/
def modelTypes (r : Registry) : TypeRef → List TypeId
  | .array element => r.modelTypes element
  | .external _ args => r.modelTypesAll args
  | .declared id args =>
    if r.isIgnored id then []
    else
      (if r.isModelOrEnum id then [id] else []) ++ r.modelTypesAll args ++ (r.modelBase? id).toList
/-- The models that references mention. -/
def modelTypesAll (r : Registry) : List TypeRef → List TypeId
  | [] => []
  | t :: ts => r.modelTypes t ++ r.modelTypesAll ts
end

/-- The models that operations mention (`seeds`). -/
def seeds (r : Registry) (operations : List Operation) : ModelSet :=
  .ofList (operations.flatMap fun o =>
    o.returns.elim [] r.modelTypes ++ o.parameters.flatMap fun p => r.modelTypes p.type)

/-- The module of a declared type. -/
def moduleOf (r : Registry) (id : TypeId) : Option String :=
  (r.get? id).map (·.module)

/-- The candidates of the type's own module that derive from it. -/
def derivedTypes (r : Registry) (id : TypeId) : List TypeId :=
  r.ids.filter fun c =>
    c ≠ id && r.moduleOf c = r.moduleOf id && r.isCandidate c && r.derives c id

/-- A set with what derives from its members in their own modules (`derived_closure`). -/
def derivedClosure (r : Registry) (s : ModelSet) : ModelSet :=
  s.insertAll (s.toList.flatMap r.derivedTypes)

/-- The candidates that a model needs: those that its properties mention, and its model base. -/
def neededTypes (r : Registry) (id : TypeId) : List TypeId :=
  ((r.allProperties id).flatMap (fun p => r.modelTypes p.type) ++ (r.modelBase? id).toList).filter
    r.isCandidate

/-- A set with all that its members need, directly or through others (`walk`). Every declared type
comes on the stack at most once, which bounds the number of steps. -/
def neededClosure (r : Registry) (s : ModelSet) : ModelSet where
  toList := reach r.neededTypes r.types.length s.toList s.toList
  nodup := reach_nodup s.nodup

/-- The models to generate for operations (`discover`). -/
def discover (r : Registry) (operations : List Operation) : ModelSet :=
  r.neededClosure (r.derivedClosure (r.seeds operations))

end ApiClient.Registry
