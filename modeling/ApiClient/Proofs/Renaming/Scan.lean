import ApiClient.Proofs.Discovery
import ApiClient.Proofs.Renaming.Registry
import ApiClient.Scan

/-!
# Renaming the types of a scan

Controllers and models are listed by names, so renaming changes them and not their order.

Results:
* `controllers`: the controllers are renamed, in the same order.
* `mem_discover_iff`: the models are found in both registries at the same time.
* `Scan.ofModules_renames`: a scan of renamed modules is a renamed scan.
-/

namespace ApiClient

namespace Registry

/-! ## Classes of controllers -/

/-- The class with its identity, if it is a controller. -/
def controllerClass? (r : Registry) (bases : List String) (id : TypeId) :
    Option (TypeId × TypeDef) :=
  match r.get? id with
  | some d => if r.isController bases d then some (id, d) else none
  | none => none

/-- The classes that are controllers, in order of declaration. -/
def controllerClasses (r : Registry) (bases : List String) : List (TypeId × TypeDef) :=
  r.ids.filterMap (r.controllerClass? bases)

theorem controllers_eq (r : Registry) (bases : List String) :
    r.controllers bases =
      (Text.sortByText (fun c : TypeId × TypeDef => c.2.name)
        (Text.sortByTexts (fun c : TypeId × TypeDef => c.2.key) (r.controllerClasses bases))).map
          fun c => r.controller c.1 c.2 :=
  rfl

theorem controllerClass?_eq_some {r : Registry} {bases : List String} {id : TypeId}
    {c : TypeId × TypeDef} : r.controllerClass? bases id = some c ↔
      id = c.1 ∧ r.get? c.1 = some c.2 ∧ r.isController bases c.2 = true := by
  unfold controllerClass?
  constructor
  · intro h
    split at h
    · rename_i d hd
      obtain ⟨hcontroller, he⟩ := Option.ite_none_right_eq_some.1 h
      obtain rfl := Option.some.inj he
      exact ⟨rfl, hd, hcontroller⟩
    · cases h
  · rintro ⟨rfl, hget, hcontroller⟩
    simp [hget, hcontroller]

theorem mem_controllerClasses {r : Registry} {bases : List String} {c : TypeId × TypeDef} :
    c ∈ r.controllerClasses bases ↔ r.get? c.1 = some c.2 ∧ r.isController bases c.2 = true := by
  simp only [controllerClasses, List.mem_filterMap, controllerClass?_eq_some]
  constructor
  · rintro ⟨_, _, _, hc⟩
    exact hc
  · intro hc
    exact ⟨c.1, mem_ids.2 ⟨c.2, hc.1⟩, rfl, hc⟩

theorem get?_of_mem_controllerClasses {r : Registry} {bases : List String} {c : TypeId × TypeDef}
    (h : c ∈ r.controllerClasses bases) : r.get? c.1 = some c.2 :=
  (mem_controllerClasses.1 h).1

theorem eq_of_mem_controllerClasses {r : Registry} {bases : List String} {c c' : TypeId × TypeDef}
    (hc : c ∈ r.controllerClasses bases) (hc' : c' ∈ r.controllerClasses bases)
    (h : c.2.key = c'.2.key) : c = c' := by
  have hget := get?_of_mem_controllerClasses hc
  have hget' := get?_of_mem_controllerClasses hc'
  have hid := eq_of_key_eq hget hget' h
  rw [hid, hget'] at hget
  exact Prod.ext hid (Option.some.inj hget).symm

end Registry

namespace Registry.Renames

variable {f : TypeId → TypeId} {r r' : Registry} (h : r.Renames f r')
include h

/-! ## Controllers -/

theorem baseName? (t : TypeRef) : r'.baseName? (t.rename f) = r.baseName? t := by
  cases t with
  | declared id args =>
    rw [TypeRef.rename_declared, Registry.baseName?, Registry.baseName?, h.get?]
    cases r.get? id <;> rfl
  | external | array => simp [Registry.baseName?]

theorem isController (bases : List String) (d : TypeDef) :
    r'.isController bases (d.rename f) = r.isController bases d := by
  have hbase : ((d.rename f).base.bind r'.baseName?) = d.base.bind r.baseName? := by
    change (d.base.map (TypeRef.rename f)).bind r'.baseName? = _
    cases d.base with
    | none => rfl
    | some t => exact h.baseName? t
  rw [Registry.isController, Registry.isController, hbase]
  rfl

theorem expands? (p : ParameterDef) : r'.expands? (p.rename f) = (r.expands? p).map f := by
  have hscalar : (r'.map false (p.type.rename f)).element.isScalar =
      (r.map false p.type).element.isScalar := by
    rw [h.map, MappedType.element_rename, MappedType.isScalar_rename]
  unfold Registry.expands?
  change (if p.markers.contains .expandInline &&
    !(r'.map false (p.type.rename f)).element.isScalar then (p.type.rename f).declaredId? else none)
      = _
  rw [hscalar, TypeRef.declaredId?_rename]
  split <;> rfl

theorem propertyParameters (id : TypeId) :
    r'.propertyParameters (f id) = (r.propertyParameters id).map (Parameter.rename f) := by
  rw [Registry.propertyParameters, Registry.propertyParameters, h.allProperties, List.map_map,
    List.map_map]
  rfl

theorem expandParameters (ps : List ParameterDef) :
    r'.expandParameters (ps.map (ParameterDef.rename f)) =
      (r.expandParameters ps).map (Parameter.rename f) := by
  have hplain : (ps.map (ParameterDef.rename f)).filterMap (fun p =>
        if (r'.expands? p).isNone then some (⟨p.name, p.type⟩ : Parameter) else none) =
      (ps.filterMap fun p =>
        if (r.expands? p).isNone then some (⟨p.name, p.type⟩ : Parameter) else none).map
          (Parameter.rename f) := by
    rw [List.filterMap_map, List.map_filterMap]
    refine List.filterMap_congr fun p _ => ?_
    rw [Function.comp_apply, h.expands?, Option.isNone_map]
    split <;> rfl
  have hexpanded : (ps.map (ParameterDef.rename f)).flatMap (fun p =>
        (r'.expands? p).elim [] r'.propertyParameters) =
      (ps.flatMap fun p => (r.expands? p).elim [] r.propertyParameters).map
        (Parameter.rename f) := by
    rw [List.flatMap_map, List.map_flatMap]
    refine List.flatMap_congr fun p _ => ?_
    rw [h.expands?]
    cases r.expands? p with
    | none => rfl
    | some id => exact h.propertyParameters id
  rw [Registry.expandParameters, Registry.expandParameters, hplain, hexpanded, ← List.map_append]
  exact distinctBy_map (fun _ => rfl) _ _

theorem operation (group : String) (m : MethodDef) :
    r'.operation group (m.rename f) = (r.operation group m).rename f := by
  simp only [Registry.operation, Operation.rename, MethodDef.rename, h.expandParameters]

theorem controller (id : TypeId) (d : TypeDef) :
    r'.controller (f id) (d.rename f) = (r.controller id d).rename f := by
  have hoperations : (d.rename f).methods.map (r'.operation (groupName d.name)) =
      (d.methods.map (r.operation (groupName d.name))).map (Operation.rename f) := by
    change (d.methods.map (MethodDef.rename f)).map _ = _
    rw [List.map_map, List.map_map]
    exact List.map_congr_left fun m _ => h.operation _ m
  simp only [Registry.controller, Controller.rename, ← hoperations]
  rfl

theorem controllerClass? (bases : List String) (id : TypeId) :
    r'.controllerClass? bases (f id) =
      (r.controllerClass? bases id).map fun c => (f c.1, c.2.rename f) := by
  rw [Registry.controllerClass?, Registry.controllerClass?, h.get?]
  cases r.get? id with
  | none => rfl
  | some d =>
    simp only [Option.map_some, h.isController]
    split <;> rfl

theorem controllerClasses_perm (bases : List String) :
    (r'.controllerClasses bases).Perm
      ((r.controllerClasses bases).map fun c => (f c.1, c.2.rename f)) := by
  refine (h.ids_perm.filterMap _).trans (.of_eq ?_)
  rw [controllerClasses, List.filterMap_map, List.map_filterMap]
  exact List.filterMap_congr fun id _ => h.controllerClass? bases id

/-- Qualified name and module decide the order, so it does not matter in which order the classes are
declared. -/
theorem controllers (bases : List String) :
    r'.controllers bases = (r.controllers bases).map (Controller.rename f) := by
  rw [controllers_eq, controllers_eq,
    Text.sortByTexts_eq_of_perm (h.controllerClasses_perm bases)
      fun c hc c' hc' => eq_of_mem_controllerClasses hc hc',
    Text.sortByTexts_map fun _ => rfl, Text.sortByText_map fun _ => rfl, List.map_map, List.map_map]
  exact List.map_congr_left fun c _ => h.controller c.1 c.2

/-! ## Models -/

theorem isSeed_iff {os : List Operation} {id : TypeId} :
    r'.IsSeed (os.map (Operation.rename f)) (f id) ↔ r.IsSeed os id := by
  have htypes : ∀ o : Operation, (o.rename f).types = o.types.map (TypeRef.rename f) := by
    intro o
    simp only [Operation.types, Operation.rename, List.map_append, List.map_map]
    cases o.returns <;> rfl
  simp only [IsSeed, List.mem_map, exists_exists_and_eq_and, htypes, h.modelTypes,
    h.injective.eq_iff, exists_eq_right]

theorem isClosed_preimage {os : List Operation} {s : Set TypeId}
    (hs : r'.IsClosed (os.map (Operation.rename f)) s) : r.IsClosed os (Set.preimage f s) := by
  refine ⟨?_, ?_, ?_, ?_⟩
  · intro id hid
    exact hs.seed (f id) (h.isSeed_iff.2 hid)
  · intro id seed hseed hderives hmodule hcandidate
    refine hs.derived (f id) (f seed) (h.isSeed_iff.2 hseed) ((h.descends id seed).2 hderives) ?_ ?_
    · rw [h.moduleOf, h.moduleOf, hmodule]
    · rw [h.isCandidate, hcandidate]
  · intro id hid base hbase
    refine hs.base (f id) hid (f base) ?_
    rw [h.modelBase?, hbase, Option.map_some]
  · intro id hid p hp m hm
    refine hs.property (f id) hid (p.rename f) ?_ (f m) ?_
    · rw [h.allProperties]
      exact List.mem_map_of_mem hp
    · change f m ∈ r'.modelTypes (p.type.rename f)
      rw [h.modelTypes]
      exact List.mem_map_of_mem hm

theorem isClosed_image {os : List Operation} {s : Set TypeId} (hs : r.IsClosed os s) :
    r'.IsClosed (os.map (Operation.rename f)) (f '' s) := by
  refine ⟨?_, ?_, ?_, ?_⟩
  · intro id hid
    obtain ⟨a, rfl⟩ := h.exists_eq id
    exact ⟨a, hs.seed a (h.isSeed_iff.1 hid), rfl⟩
  · intro id seed hseed hderives hmodule hcandidate
    obtain ⟨a, rfl⟩ := h.exists_eq id
    obtain ⟨b, rfl⟩ := h.exists_eq seed
    rw [h.moduleOf, h.moduleOf] at hmodule
    rw [h.isCandidate] at hcandidate
    refine ⟨a, hs.derived a b (h.isSeed_iff.1 hseed) ?_ hmodule hcandidate, rfl⟩
    exact (h.descends a b).1 hderives
  · rintro _ ⟨a, ha, rfl⟩ base hbase
    rw [h.modelBase?] at hbase
    obtain ⟨b, hb, rfl⟩ := Option.map_eq_some_iff.1 hbase
    exact ⟨b, hs.base a ha b hb, rfl⟩
  · rintro _ ⟨a, ha, rfl⟩ p hp m hm
    rw [h.allProperties] at hp
    obtain ⟨q, hq, rfl⟩ := List.mem_map.1 hp
    change m ∈ r'.modelTypes (q.type.rename f) at hm
    rw [h.modelTypes] at hm
    obtain ⟨b, hb, rfl⟩ := List.mem_map.1 hm
    exact ⟨b, hs.property a ha q hq b hb, rfl⟩

/-- The models are found in both registries at the same time: either set of models is closed in the
other registry. -/
theorem mem_discover_iff {os : List Operation} {id : TypeId} :
    f id ∈ r'.discover (os.map (Operation.rename f)) ↔ id ∈ r.discover os := by
  constructor
  · intro hid
    obtain ⟨a, ha, he⟩ := mem_of_mem_discover (h.isClosed_image (discover_closed r os)) hid
    exact h.injective he ▸ ha
  · intro hid
    exact mem_of_mem_discover (h.isClosed_preimage (discover_closed r' _)) hid

/-- Sets with the same members up to renaming list them in the same order. -/
theorem sorted {s s' : ModelSet} (hs : ∀ id ∈ s, id ∈ r.ids) (hmem : ∀ id, f id ∈ s' ↔ id ∈ s) :
    s'.sorted r' = (s.sorted r).map f := by
  have hperm : s'.toList.Perm (s.toList.map f) := by
    refine (List.perm_ext_iff_of_nodup s'.nodup (s.nodup.map h.injective)).2 fun id => ?_
    obtain ⟨a, rfl⟩ := h.exists_eq id
    rw [List.mem_map_of_injective h.injective]
    exact hmem a
  have hkey : ∀ a ∈ s.toList.map f, ∀ b ∈ s.toList.map f,
      ModelSet.sortKey r' a = ModelSet.sortKey r' b → a = b := by
    intro a ha b hb he
    obtain ⟨c, hc, rfl⟩ := List.mem_map.1 ha
    obtain ⟨d, hd, rfl⟩ := List.mem_map.1 hb
    rw [h.sortKey, h.sortKey] at he
    rw [ModelSet.sortKey_inj (hs c hc) (hs d hd) he]
  rw [ModelSet.sorted, ModelSet.sorted, ← Text.sortByTexts_eq_of_perm hperm.symm hkey,
    Text.sortByTexts_map h.sortKey]

end Registry.Renames

/-! ## Scans -/

namespace Scan

/-- The second scan found what the first one found, under other identities. -/
structure Renames (f : TypeId → TypeId) (s s' : Scan) : Prop where
  registry : s.registry.Renames f s'.registry
  controllers : s'.controllers = s.controllers.map (Controller.rename f)
  sorted : s'.models.sorted s'.registry = (s.models.sorted s.registry).map f

theorem ofModules_models (bases : List String) (l : LoadedModules) :
    (ofModules bases l).models = l.registry.discover (ofModules bases l).operations :=
  rfl

theorem operations_rename {f : TypeId → TypeId} {s s' : Scan}
    (h : s'.controllers = s.controllers.map (Controller.rename f)) :
    s'.operations = s.operations.map (Operation.rename f) := by
  rw [operations, operations, h, List.flatMap_map, List.map_flatMap]
  rfl

theorem ofModules_renames {f : TypeId → TypeId} {l l' : LoadedModules}
    (h : l.registry.Renames f l'.registry) (bases : List String) :
    (ofModules bases l).Renames f (ofModules bases l') := by
  have hcontrollers : (ofModules bases l').controllers =
      (ofModules bases l).controllers.map (Controller.rename f) := h.controllers bases
  refine ⟨h, hcontrollers, h.sorted ?_ ?_⟩
  · intro id hid
    exact Registry.mem_ids_of_isCandidate (Registry.isCandidate_of_mem_discover hid)
  · intro id
    rw [ofModules_models, ofModules_models, operations_rename hcontrollers]
    exact h.mem_discover_iff

end Scan

end ApiClient
