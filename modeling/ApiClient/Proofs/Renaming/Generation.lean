import ApiClient.Generation
import ApiClient.Proofs.Renaming.Scan
import ApiClient.Proofs.Renaming.Service

/-!
# Renamed scans generate the same code

Generated code shows names and never identities. Files are in the order of names too, so renamed
scans give the same files in the same order, or the same fault.

Results:
* `Registry.Renames.manifest`: the manifest of renamed models.
* `Scan.Renames.emittedModels`: the models that get a file are renamed.
* `Scan.Renames.generate`: the generated code is the same.
-/

namespace ApiClient

/-! ## Manifests -/

namespace Registry.Renames

variable {f : TypeId → TypeId} {r r' : Registry} (h : r.Renames f r')
include h

theorem memberTypes (t : TypeRef) :
    r'.memberTypes (t.rename f) = (r.memberTypes t).map (TypeRef.rename f) := by
  cases t with
  | declared id args =>
    have hconstants : r'.constantsOf (f id) = (r.constantsOf id).map (ConstantDef.rename f) := by
      rw [constantsOf, constantsOf, h.get?]
      cases r.get? id <;> rfl
    rw [TypeRef.rename_declared, Registry.memberTypes, Registry.memberTypes, hconstants,
      h.allProperties, List.map_append, List.map_map, List.map_map, List.map_map, List.map_map]
    rfl
  | external | array => simp [Registry.memberTypes]

theorem manifestEntry (t : TypeRef) : r'.manifestEntry (t.rename f) = r.manifestEntry t := by
  unfold Registry.manifestEntry
  rw [h.display, TypeRef.declaredId?_rename]
  cases t.declaredId? with
  | none => rfl
  | some id =>
    simp only [Option.map_some, Option.bind_some, h.get?]
    cases r.get? id with
    | none => rfl
    | some d =>
      have hconstants : (d.rename f).constants.map (fun c =>
          (⟨r'.display c.type, c.name, none⟩ : ManifestField)) =
            d.constants.map fun c => ⟨r.display c.type, c.name, none⟩ := by
        change (d.constants.map (ConstantDef.rename f)).map _ = _
        rw [List.map_map]
        exact List.map_congr_left fun c _ => congrArg (ManifestField.mk · c.name none) (h.display _)
      have hproperties : (r'.allProperties (f id)).map (fun p =>
          (⟨r'.display p.type, p.name, p.doc⟩ : ManifestField)) =
            (r.allProperties id).map fun p => ⟨r.display p.type, p.name, p.doc⟩ := by
        rw [h.allProperties, List.map_map]
        exact List.map_congr_left fun p _ =>
          congrArg (ManifestField.mk · p.name p.doc) (h.display _)
      simp only [Option.map_some, hconstants, hproperties]
      rfl

theorem displays (ts : List TypeRef) :
    (ts.map (TypeRef.rename f)).map r'.display = ts.map r.display := by
  rw [List.map_map]
  exact List.map_congr_left fun t _ => h.display t

theorem manifestLayers (passes : ℕ) (present : List String) (layer : List TypeRef) :
    r'.manifestLayers passes present (layer.map (TypeRef.rename f)) =
      r.manifestLayers passes present layer := by
  have hmissing : ∀ (present : List String) (layer : List TypeRef),
      distinctBy r'.display present ((layer.map (TypeRef.rename f)).flatMap r'.memberTypes) =
        (distinctBy r.display present (layer.flatMap r.memberTypes)).map (TypeRef.rename f) := by
    intro present layer
    rw [List.flatMap_map, List.flatMap_congr fun t _ => h.memberTypes t, ← List.map_flatMap]
    exact distinctBy_map h.display _ _
  have hentries : ∀ layer : List TypeRef, (layer.map (TypeRef.rename f)).map r'.manifestEntry =
      layer.map r.manifestEntry := by
    intro layer
    rw [List.map_map]
    exact List.map_congr_left fun t _ => h.manifestEntry t
  induction passes generalizing present layer with
  | zero =>
    unfold Registry.manifestLayers
    simp only [hmissing, hentries, List.isEmpty_map]
  | succ passes ih =>
    unfold Registry.manifestLayers
    simp only [hmissing, hentries, h.displays, List.isEmpty_map, ih]

theorem manifestText {s s' : ModelSet} (hs : s'.sorted r' = (s.sorted r).map f) :
    r'.manifestText s' = r.manifestText s := by
  have hlayer : (s'.sorted r').map (fun id => TypeRef.declared id []) =
      ((s.sorted r).map fun id => TypeRef.declared id []).map (TypeRef.rename f) := by
    rw [hs, List.map_map, List.map_map]
    exact List.map_congr_left fun id _ => (TypeRef.rename_declared id []).symm
  have hmanifest : r'.manifest s' = r.manifest s := by
    unfold manifest
    simp only [hlayer, h.displays, h.manifestLayers]
  rw [Registry.manifestText, Registry.manifestText, hmanifest]

end Registry.Renames

/-! ## Texts -/

theorem ModelView.render_rename {f : TypeId → TypeId} (v : ModelView) (o : Options) :
    (v.rename f).render o = v.render o := by
  unfold render context
  rw [Angular.classContext_rename, React.interfaceContext_rename]

theorem Service.render_rename {f : TypeId → TypeId} (s : Service) (o : Options) (apiPath : String) :
    (s.rename f).render o apiPath = s.render o apiPath := by
  unfold render context
  rw [Angular.serviceContext_rename, React.serviceContext_rename]

/-! ## Files -/

namespace Scan.Renames

variable {f : TypeId → TypeId} {s s' : Scan} (h : s.Renames f s')
include h

theorem emitted (taken : List String) (ids : List TypeId) :
    s'.emitted taken (ids.map f) = (s.emitted taken ids).map fun m => (f m.1, m.2.rename f) := by
  induction ids generalizing taken with
  | nil => rfl
  | cons id ids ih =>
    rw [List.map_cons, Scan.emitted, Scan.emitted, h.registry.get?]
    cases s.registry.get? id with
    | none => exact ih taken
    | some d =>
      simp only [Option.map_some, show (d.rename f).name = d.name from rfl, ih]
      split <;> rfl

theorem emittedModels : s'.emittedModels = s.emittedModels.map fun m => (f m.1, m.2.rename f) := by
  rw [Scan.emittedModels, Scan.emittedModels, h.sorted, h.emitted]

theorem modelFile (o : Options) (m : TypeId × TypeDef) :
    s'.modelFile o (f m.1, m.2.rename f) = s.modelFile o m := by
  have hrender : s'.renderType o (f m.1) (m.2.rename f) = s.renderType o m.1 m.2 := by
    rw [renderType, renderType, h.registry.view, ModelView.render_rename]
    rfl
  rw [Scan.modelFile, Scan.modelFile, hrender]
  rfl

theorem serviceFile? (o : Options) : s'.serviceFile? o = s.serviceFile? o := by
  unfold Scan.serviceFile?
  rw [h.controllers, h.registry.service]
  simp only [Service.render_rename]

theorem entries (o : Options) : s'.entries o = s.entries o := by
  rw [Scan.entries, Scan.entries, h.emittedModels, List.map_map]
  rfl

theorem manifestFile? (o : Options) : s'.manifestFile? o = s.manifestFile? o := by
  rw [Scan.manifestFile?, Scan.manifestFile?, h.registry.manifestText h.sorted]

/-- Renamed scans generate the same code, or fail in the same way. -/
theorem generate (o : Options) : s'.generate o = s.generate o := by
  have hmodels : s'.emittedModels.mapM (s'.modelFile o) = s.emittedModels.mapM (s.modelFile o) := by
    rw [h.emittedModels, List.mapM_map]
    exact congrArg (List.mapM · s.emittedModels) (funext (h.modelFile o))
  unfold Scan.generate
  rw [hmodels, h.serviceFile?, h.entries, h.manifestFile?]

end Scan.Renames

end ApiClient
