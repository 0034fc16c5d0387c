import ApiClient.Controllers
import ApiClient.Manifest
import ApiClient.Proofs.Inheritance
import ApiClient.Proofs.Renaming.Data

/-!
# Renaming the types of a registry

Two registries that declare the same types in different orders are renamings of each other. What a
registry says about an identity, the other one says about the renamed identity.

Results:
* `Registry.Renames`: the second registry is the first one with other identities.
* `ancestors`, `allProperties`: base chains and effective properties are renamed.
* `modelTypes`, `map`, `display`: so are the models that a reference mentions and its mapped type,
  while its printed form stays.
-/

namespace ApiClient.Registry

/-- The second registry declares the types of the first one, each under its new identity. -/
structure Renames (f : TypeId → TypeId) (r r' : Registry) : Prop where
  bijective : Function.Bijective f
  length : r'.types.length = r.types.length
  get? : ∀ id, r'.get? (f id) = (r.get? id).map (TypeDef.rename f)

namespace Renames

variable {f : TypeId → TypeId} {r r' : Registry} (h : r.Renames f r')
include h

theorem injective : Function.Injective f :=
  h.bijective.1

theorem exists_eq (id : TypeId) : ∃ a, f a = id :=
  h.bijective.2 id

theorem ids_perm : r'.ids.Perm (r.ids.map f) := by
  refine (List.perm_ext_iff_of_nodup r'.ids_nodup (r.ids_nodup.map h.injective)).2 fun id => ?_
  obtain ⟨a, rfl⟩ := h.exists_eq id
  rw [List.mem_map_of_injective h.injective, mem_ids, mem_ids, h.get?]
  cases r.get? a <;> simp

/-! ## Classes of types -/

theorem qualifiedName (id : TypeId) : r'.qualifiedName (f id) = r.qualifiedName id := by
  rw [Registry.qualifiedName, Registry.qualifiedName, h.get?]
  cases r.get? id <;> rfl

theorem sortKey (id : TypeId) : ModelSet.sortKey r' (f id) = ModelSet.sortKey r id := by
  rw [ModelSet.sortKey, ModelSet.sortKey, h.get?]
  cases r.get? id <;> rfl

theorem moduleOf (id : TypeId) : r'.moduleOf (f id) = r.moduleOf id := by
  rw [Registry.moduleOf, Registry.moduleOf, h.get?]
  cases r.get? id <;> rfl

theorem isModel (id : TypeId) : r'.isModel (f id) = r.isModel id := by
  rw [Registry.isModel, Registry.isModel, h.get?]
  cases r.get? id <;> rfl

theorem isEnum (id : TypeId) : r'.isEnum (f id) = r.isEnum id := by
  rw [Registry.isEnum, Registry.isEnum, h.get?]
  cases r.get? id <;> rfl

theorem isModelOrEnum (id : TypeId) : r'.isModelOrEnum (f id) = r.isModelOrEnum id := by
  rw [Registry.isModelOrEnum, Registry.isModelOrEnum, h.isModel, h.isEnum]

theorem isIgnored (id : TypeId) : r'.isIgnored (f id) = r.isIgnored id := by
  rw [Registry.isIgnored, Registry.isIgnored, h.get?]
  cases r.get? id <;> rfl

theorem isCandidate (id : TypeId) : r'.isCandidate (f id) = r.isCandidate id := by
  rw [Registry.isCandidate, Registry.isCandidate, h.isModelOrEnum, h.isIgnored]

theorem isConstructible (id : TypeId) : r'.isConstructible (f id) = r.isConstructible id := by
  rw [Registry.isConstructible, Registry.isConstructible, h.get?]
  cases r.get? id <;> rfl

/-! ## Base chains -/

theorem baseId? (id : TypeId) : r'.baseId? (f id) = (r.baseId? id).map f := by
  rw [Registry.baseId?, Registry.baseId?, h.get?]
  cases r.get? id with
  | none => rfl
  | some d =>
    change (d.base.map (TypeRef.rename f)).bind TypeRef.declaredId? = _
    cases hbase : d.base <;> simp [hbase]

theorem modelBase? (id : TypeId) : r'.modelBase? (f id) = (r.modelBase? id).map f := by
  rw [Registry.modelBase?, Registry.modelBase?, h.baseId?]
  cases r.baseId? id with
  | none => rfl
  | some base =>
    rw [Option.map_some, Option.filter_some, Option.filter_some, h.isModel, h.isIgnored]
    split <;> rfl

theorem chain (fuel : ℕ) (seen : List TypeId) (id : TypeId) :
    r'.chain fuel (seen.map f) (f id) = (r.chain fuel seen id).map f := by
  induction fuel generalizing seen id with
  | zero => rfl
  | succ fuel ih =>
    rw [Registry.chain, Registry.chain, h.baseId?]
    cases r.baseId? id with
    | none => rfl
    | some base =>
      simp only [Option.map_some, List.mem_map_of_injective h.injective]
      split
      · rfl
      · rw [List.map_cons, ← ih, List.map_cons]

theorem ancestors (id : TypeId) : r'.ancestors (f id) = (r.ancestors id).map f := by
  rw [Registry.ancestors, Registry.ancestors, h.length, ← h.chain]
  rfl

theorem descends (sub ancestor : TypeId) :
    r'.Descends (f sub) (f ancestor) ↔ r.Descends sub ancestor := by
  rw [← mem_ancestors, ← mem_ancestors, h.ancestors, List.mem_map_of_injective h.injective]

theorem ownProperties (id : TypeId) :
    r'.ownProperties (f id) = (r.ownProperties id).map (PropertyDef.rename f) := by
  rw [Registry.ownProperties, Registry.ownProperties, h.get?]
  cases r.get? id <;> rfl

theorem allProperties (id : TypeId) :
    r'.allProperties (f id) = (r.allProperties id).map (PropertyDef.rename f) := by
  rw [Registry.allProperties, Registry.allProperties, h.ancestors, ← List.map_cons,
    List.flatMap_map]
  simp only [h.ownProperties]
  rw [← List.map_flatMap]
  exact distinctBy_map (fun _ => rfl) _ _

/-! ## References -/

theorem modelTypes (t : TypeRef) : r'.modelTypes (t.rename f) = (r.modelTypes t).map f := by
  have hargs : ∀ args : List TypeRef,
      (∀ t ∈ args, r'.modelTypes (t.rename f) = (r.modelTypes t).map f) →
        (args.map (TypeRef.rename f)).flatMap r'.modelTypes =
          (args.flatMap r.modelTypes).map f := by
    intro args hargs
    rw [List.flatMap_map, List.map_flatMap]
    exact List.flatMap_congr hargs
  induction t using TypeRef.induction with
  | declared id args ih =>
    rw [TypeRef.rename_declared, Registry.modelTypes, Registry.modelTypes, h.isIgnored,
      h.isModelOrEnum, h.modelBase?, modelTypesAll_eq_flatMap, modelTypesAll_eq_flatMap,
      hargs args ih]
    split
    · rfl
    · cases r.modelBase? id <;> split <;> simp
  | external type args ih =>
    rw [TypeRef.rename_external, Registry.modelTypes, Registry.modelTypes,
      modelTypesAll_eq_flatMap, modelTypesAll_eq_flatMap, hargs args ih]
  | array t ih => rw [TypeRef.rename_array, Registry.modelTypes, Registry.modelTypes, ih]

omit h in
theorem mapOnly {utc : Bool} {args : List TypeRef}
    (hargs : ∀ t ∈ args, r'.map utc (t.rename f) = (r.map utc t).rename f) :
    r'.mapOnly utc (args.map (TypeRef.rename f)) = (r.mapOnly utc args).rename f := by
  match args with
  | [] => rfl
  | [t] => exact hargs t (.head _)
  | _ :: _ :: _ => rfl

omit h in
theorem mapElement {utc : Bool} {args : List TypeRef}
    (hargs : ∀ t ∈ args, r'.map utc (t.rename f) = (r.map utc t).rename f) :
    r'.mapElement utc (args.map (TypeRef.rename f)) = (r.mapElement utc args).rename f := by
  match args with
  | [] => rfl
  | [t] =>
    change (r'.map utc (t.rename f)).arrayOf = ((r.map utc t).arrayOf).rename f
    rw [hargs t (.head _), MappedType.arrayOf_rename]
  | _ :: _ :: _ => rfl

theorem map (utc : Bool) (t : TypeRef) : r'.map utc (t.rename f) = (r.map utc t).rename f := by
  induction t using TypeRef.induction with
  | declared id args ih =>
    rw [TypeRef.rename_declared, Registry.map, Registry.map, h.isIgnored, h.isModelOrEnum,
      h.get?, mapOnly ih]
    cases r.get? id <;> split <;> first | rfl | (split <;> rfl)
  | external type args ih =>
    rw [TypeRef.rename_external, Registry.map, Registry.map, mapOnly ih, mapElement ih]
    cases type.kind <;> rfl
  | array t ih =>
    rw [TypeRef.rename_array, Registry.map, Registry.map, ih, MappedType.arrayOf_rename]

theorem mapProperty (p : PropertyDef) :
    r'.mapProperty (p.rename f) = (r.mapProperty p).rename f :=
  h.map _ _

theorem display (t : TypeRef) : r'.display (t.rename f) = r.display t := by
  have hargs : ∀ args : List TypeRef, (∀ t ∈ args, r'.display (t.rename f) = r.display t) →
      (args.map (TypeRef.rename f)).map r'.display = args.map r.display := by
    intro args hargs
    rw [List.map_map]
    exact List.map_congr_left hargs
  induction t using TypeRef.induction with
  | declared id args ih =>
    rw [TypeRef.rename_declared, Registry.display, Registry.display, displayAll_eq_map,
      displayAll_eq_map, hargs args ih, h.qualifiedName]
  | external type args ih =>
    rw [TypeRef.rename_external, Registry.display, Registry.display, displayAll_eq_map,
      displayAll_eq_map, hargs args ih]
  | array t ih => rw [TypeRef.rename_array, Registry.display, Registry.display, ih]

end Renames

end ApiClient.Registry
