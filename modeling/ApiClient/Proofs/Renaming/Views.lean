import ApiClient.Dialect.Angular
import ApiClient.Dialect.React
import ApiClient.Proofs.Renaming.Registry

/-!
# Renaming the types of views

The view of a renamed class is renamed. The contexts that templates are filled with show no
identities, so these stay as they are.

Results:
* `Registry.Renames.view`: views are renamed.
* `Angular.classContext_rename`, `React.interfaceContext_rename`: the contexts of a class stay.
-/

namespace ApiClient

namespace Registry

/-- What the view of a class imports for a property; a class does not import itself. -/
def propertyImport? (r : Registry) (id : TypeId) (p : MappedProperty) : Option Import :=
  match p.type.model? with
  | some (child, name) => if child = id then none else some ⟨name, r.isConstructible child⟩
  | none => none

theorem view_eq (r : Registry) (id : TypeId) (d : TypeDef) :
    r.view id d =
      { definition := d
        base := (r.modelBase? id).bind r.get?
        imports := Import.collect
          ((((r.modelBase? id).bind r.get?).map fun b => ⟨b.name, b.isConstructible⟩).toList ++
            (r.mappedProperties (r.allProperties id)).filterMap (r.propertyImport? id))
        declared :=
          if ((r.modelBase? id).bind r.get?).isSome then r.mappedProperties d.properties
          else r.mappedProperties (r.allProperties id)
        all := r.mappedProperties (r.allProperties id)
        constants := r.mappedConstants d } :=
  rfl

end Registry

namespace Registry.Renames

variable {f : TypeId → TypeId} {r r' : Registry} (h : r.Renames f r')
include h

/-! ## Properties and constants -/

theorem importOf? (t : MappedType) : r'.importOf? (t.rename f) = r.importOf? t := by
  rw [Registry.importOf?, Registry.importOf?, MappedType.model?_rename, Option.map_map]
  refine Option.map_congr fun m _ => ?_
  simp only [Function.comp_apply, h.isConstructible]

theorem mappedProperty? (p : PropertyDef) :
    r'.mappedProperty? (p.rename f) = (r.mappedProperty? p).map (MappedProperty.rename f) := by
  have hconstructible : ((r'.mapProperty (p.rename f)).model?.map fun m => r'.isConstructible m.1)
      = (r.mapProperty p).model?.map fun m => r.isConstructible m.1 := by
    rw [h.mapProperty, MappedType.model?_rename, Option.map_map]
    exact Option.map_congr fun m _ => h.isConstructible m.1
  rw [Registry.mappedProperty?, Registry.mappedProperty?, hconstructible, h.mapProperty]
  simp only [MappedType.isExcluded_rename]
  split <;> rfl

theorem mappedProperties (ps : List PropertyDef) :
    r'.mappedProperties (ps.map (PropertyDef.rename f)) =
      (r.mappedProperties ps).map (MappedProperty.rename f) := by
  rw [Registry.mappedProperties, Registry.mappedProperties, List.filterMap_map,
    show r'.mappedProperty? ∘ PropertyDef.rename f = _ from funext h.mappedProperty?,
    ← List.map_filterMap]
  exact Text.sortByText_map (fun _ => rfl) _

theorem literalConstant? (c : ConstantDef) :
    r'.literalConstant? (c.rename f) = r.literalConstant? c := by
  have hmap : r'.map false (c.rename f).type = (r.map false c.type).rename f := h.map _ _
  unfold Registry.literalConstant?
  rw [hmap]
  rcases r.map false c.type with _ | kind | _ | _ | _ | _
  case primitive => cases kind <;> rfl
  all_goals rfl

theorem readonlyConstant? (c : ConstantDef) :
    r'.readonlyConstant? (c.rename f) = r.readonlyConstant? c := by
  have hmap : r'.map false (c.rename f).type = (r.map false c.type).rename f := h.map _ _
  have hconstant : ∀ t, mappedConstant (c.rename f) (t.rename f) = mappedConstant c t := by
    intro t
    unfold mappedConstant
    rw [MappedType.display_rename]
    rcases t with _ | kind | _ | _ | _ | _
    case primitive => cases kind <;> rfl
    all_goals rfl
  rw [Registry.readonlyConstant?, Registry.readonlyConstant?, hmap, hconstant]
  simp only [MappedType.isExcluded_rename]
  rfl

theorem mappedConstants (d : TypeDef) : r'.mappedConstants (d.rename f) = r.mappedConstants d := by
  have hconstants : (d.rename f).constants = d.constants.map (ConstantDef.rename f) := rfl
  rw [Registry.mappedConstants, Registry.mappedConstants, hconstants, List.filterMap_map,
    List.filterMap_map, show r'.literalConstant? ∘ ConstantDef.rename f = _ from
      funext h.literalConstant?,
    show r'.readonlyConstant? ∘ ConstantDef.rename f = _ from funext h.readonlyConstant?]
  rfl

/-! ## Views -/

theorem propertyImport? (id : TypeId) (p : MappedProperty) :
    r'.propertyImport? (f id) (p.rename f) = r.propertyImport? id p := by
  unfold Registry.propertyImport?
  rw [show (p.rename f).type = p.type.rename f from rfl, MappedType.model?_rename]
  cases p.type.model? with
  | none => rfl
  | some m => simp only [Option.map_some, h.injective.eq_iff, h.isConstructible]

theorem view (id : TypeId) (d : TypeDef) :
    r'.view (f id) (d.rename f) = (r.view id d).rename f := by
  have hbase : (r'.modelBase? (f id)).bind r'.get? =
      ((r.modelBase? id).bind r.get?).map (TypeDef.rename f) := by
    rw [h.modelBase?]
    cases r.modelBase? id with
    | none => rfl
    | some base => exact h.get? base
  have hall : r'.mappedProperties (r'.allProperties (f id)) =
      (r.mappedProperties (r.allProperties id)).map (MappedProperty.rename f) := by
    rw [h.allProperties, h.mappedProperties]
  have hmentioned : r'.propertyImport? (f id) ∘ MappedProperty.rename f = r.propertyImport? id :=
    funext (h.propertyImport? id)
  have hnamed : ∀ base : Option TypeDef,
      (base.map (TypeDef.rename f)).map (fun b => (⟨b.name, b.isConstructible⟩ : Import)) =
        base.map fun b => ⟨b.name, b.isConstructible⟩ := by
    intro base
    cases base <;> rfl
  have hproperties : (d.rename f).properties = d.properties.map (PropertyDef.rename f) := rfl
  rw [view_eq, view_eq, hbase, hall, hnamed, List.filterMap_map, hmentioned, hproperties,
    h.mappedProperties, h.mappedConstants, Option.isSome_map]
  simp only [ModelView.rename, ModelView.mk.injEq, true_and, and_true]
  split <;> rfl

end Registry.Renames

/-! ## Contexts of classes -/

namespace ModelView

variable {f : TypeId → TypeId} (v : ModelView)

theorem usesMoment_rename : (v.rename f).usesMoment = v.usesMoment := by
  change (v.all.map (MappedProperty.rename f)).any _ = _
  rw [List.any_map, show (fun p : MappedProperty => p.type.mentionsDate) ∘ MappedProperty.rename f =
    fun p => p.type.mentionsDate from funext fun p => MappedType.mentionsDate_rename p.type]
  rfl

theorem baseName_rename : (v.rename f).base.map (·.name) = v.base.map (·.name) := by
  change (v.base.map (TypeDef.rename f)).map _ = _
  cases v.base <;> rfl

theorem modelProperties_rename : (v.rename f).modelProperties = v.modelProperties := by
  change (v.all.map (MappedProperty.rename f)).filterMap _ = _
  rw [List.filterMap_map]
  refine List.filterMap_congr fun ⟨_, t, _⟩ _ => ?_
  cases t <;> rfl

theorem modelArrayProperties_rename :
    (v.rename f).modelArrayProperties = v.modelArrayProperties := by
  change (v.all.map (MappedProperty.rename f)).filterMap _ = _
  rw [List.filterMap_map]
  refine List.filterMap_congr fun ⟨_, t, _⟩ _ => ?_
  rcases t with _ | _ | _ | t | _ | _
  case array => cases t <;> rfl
  all_goals rfl

theorem dateProperties_rename (utc : Bool) :
    (v.rename f).dateProperties utc = v.dateProperties utc := by
  change (v.all.map (MappedProperty.rename f)).filterMap _ = _
  rw [List.filterMap_map]
  refine List.filterMap_congr fun p _ => ?_
  change (if p.type.rename f = _ then some p.name else none) = _
  simp only [MappedType.rename_eq_date]

end ModelView

theorem Angular.classContext_rename {f : TypeId → TypeId} (o : Options) (v : ModelView) :
    classContext o (v.rename f) = classContext o v := by
  have hfields : (v.rename f).declared.map (fun p => (⟨p.name, p.type.display,
      p.type.initializer⟩ : FieldContext)) =
        v.declared.map fun p => ⟨p.name, p.type.display, p.type.initializer⟩ := by
    change (v.declared.map (MappedProperty.rename f)).map _ = _
    rw [List.map_map]
    refine List.map_congr_left fun p _ => ?_
    simp [MappedProperty.rename]
  have hhydrations : hydrations (v.rename f) = hydrations v := by
    rw [hydrations, hydrations, v.modelProperties_rename, v.modelArrayProperties_rename,
      v.dateProperties_rename, v.dateProperties_rename]
  unfold classContext
  rw [hfields, hhydrations, v.usesMoment_rename, v.baseName_rename]
  rfl

theorem React.interfaceContext_rename {f : TypeId → TypeId} (o : Options) (v : ModelView) :
    interfaceContext o (v.rename f) = interfaceContext o v := by
  have hmembers : (v.rename f).declared.map (fun p => (⟨p.name, p.type.display⟩ : MemberContext)) =
      v.declared.map fun p => ⟨p.name, p.type.display⟩ := by
    change (v.declared.map (MappedProperty.rename f)).map _ = _
    rw [List.map_map]
    refine List.map_congr_left fun p _ => ?_
    simp [MappedProperty.rename]
  have hsegments : segments (v.rename f) = segments v := by
    rw [segments, segments, v.modelProperties_rename, v.modelArrayProperties_rename,
      v.dateProperties_rename, v.dateProperties_rename]
  have hfactory : ((v.rename f).base.filter TypeDef.isConstructible).map (·.name) =
      (v.base.filter TypeDef.isConstructible).map (·.name) := by
    change ((v.base.map (TypeDef.rename f)).filter _).map _ = _
    cases v.base with
    | none => rfl
    | some b =>
      rw [Option.map_some, Option.filter_some, Option.filter_some,
        show (b.rename f).isConstructible = b.isConstructible from rfl]
      split <;> rfl
  unfold interfaceContext
  rw [hmembers, hsegments, hfactory, v.usesMoment_rename, v.baseName_rename]
  rfl

end ApiClient
