import ApiClient.Discovery
import ApiClient.Mapping

/-!
# Induction over references

References and type expressions nest through their lists of arguments. The functions on them come in
pairs, one for a reference and one for a list; here the second one is written with the operators of
lists, so that proofs go by one induction.

* `TypeRef.induction`, `TypeExpr.induction`: a property of all arguments carries over to the whole.
* `resolveAll_eq_map`, `displayAll_eq_map`, `modelTypesAll_eq_flatMap`: the functions on lists.
-/

namespace ApiClient

theorem TypeRef.induction {motive : TypeRef → Prop}
    (declared : ∀ id args, (∀ t ∈ args, motive t) → motive (.declared id args))
    (external : ∀ type args, (∀ t ∈ args, motive t) → motive (.external type args))
    (array : ∀ t, motive t → motive (.array t)) : ∀ t, motive t
  | .declared id args => declared id args fun t _ => induction declared external array t
  | .external type args => external type args fun t _ => induction declared external array t
  | .array t => array t (induction declared external array t)

theorem TypeExpr.induction {motive : TypeExpr → Prop}
    (named : ∀ name args, (∀ e ∈ args, motive e) → motive (.named name args))
    (array : ∀ e, motive e → motive (.array e)) : ∀ e, motive e
  | .named name args => named name args fun e _ => induction named array e
  | .array e => array e (induction named array e)

namespace Registry

variable (r : Registry)

@[simp] theorem resolveAll_eq_map (module : String) (es : List TypeExpr) :
    r.resolveAll module es = es.map (r.resolve module) := by
  induction es with
  | nil => rfl
  | cons e es ih => rw [resolveAll, ih, List.map_cons]

@[simp] theorem displayAll_eq_map (ts : List TypeRef) : r.displayAll ts = ts.map r.display := by
  induction ts with
  | nil => rfl
  | cons t ts ih => rw [displayAll, ih, List.map_cons]

@[simp] theorem modelTypesAll_eq_flatMap (ts : List TypeRef) :
    r.modelTypesAll ts = ts.flatMap r.modelTypes := by
  induction ts with
  | nil => rfl
  | cons t ts ih => rw [modelTypesAll, ih, List.flatMap_cons]

end Registry

end ApiClient
