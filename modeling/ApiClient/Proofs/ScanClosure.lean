import ApiClient.Proofs.Discovery
import ApiClient.Proofs.Mapping
import ApiClient.Proofs.Views
import ApiClient.Scan

/-!
# What generated code refers to is discovered

Discovery collects models from references, and generated code refers to the models that references
are mapped to. The two go through references by rules of their own.

A type may list a property name more than once. Discovery goes by the effective properties, of one
name the first, and so do all lists of a view but one: a class whose base is a model declares its
own properties as they are written.

Results:
* `Scan.IsSelfContained`: no model that generated code refers to is missing in the scan.
* `mem_models_of_all`, `mem_models_of_declared`, `mem_models_of_service`: the references of views
  and services lead into the scan, those of repeated properties apart.
* `isSelfContained_iff`: a scan is self-contained exactly if the repeated properties of classes with
  a model base refer to nothing else.
* `not_isSelfContained_repeatedPart`: some scan is not.
-/

namespace ApiClient

/-- An earlier property of the type has the name of this one. -/
def TypeDef.Repeats (d : TypeDef) (p : PropertyDef) : Prop :=
  ∃ ps qs, d.properties = ps ++ p :: qs ∧ p.name ∈ ps.map PropertyDef.name

namespace Scan

/-- The model that a mapped type refers to, if any, belongs to the scan. -/
def Covers (s : Scan) (t : MappedType) : Prop :=
  ∀ id name, t.model? = some (id, name) → id ∈ s.models

/-- The identity is that of a class among the models of the scan. -/
def IsClass (s : Scan) (id : TypeId) (d : TypeDef) : Prop :=
  id ∈ s.models ∧ s.registry.get? id = some d ∧ d.kind = .classType

/-- All models that generated code refers to belong to the scan. -/
structure IsSelfContained (s : Scan) : Prop where
  base : ∀ id d, s.IsClass id d → ∀ base, s.registry.modelBase? id = some base → base ∈ s.models
  all : ∀ id d, s.IsClass id d → ∀ p ∈ (s.registry.view id d).all, s.Covers p.type
  declared : ∀ id d, s.IsClass id d → ∀ p ∈ (s.registry.view id d).declared, s.Covers p.type
  service : ∀ g ∈ (s.registry.service s.controllers).groups, ∀ m ∈ g.methods, ∀ t ∈ m.types,
    s.Covers t

variable {bases : List String} {l : LoadedModules}

/-! ## References of views -/

theorem models_closed (bases : List String) (l : LoadedModules) :
    l.registry.IsClosed (ofModules bases l).operations {id | id ∈ (ofModules bases l).models} :=
  Registry.discover_closed _ _

/-- An effective property of a model leads into the scan. -/
theorem covers_mapProperty {id : TypeId} (hid : id ∈ (ofModules bases l).models) {p : PropertyDef}
    (hp : p ∈ l.registry.allProperties id) :
    (ofModules bases l).Covers (l.registry.mapProperty p) := by
  intro m name hm
  exact (models_closed bases l).property id hid p hp m (Registry.mem_modelTypes_of_map hm)

theorem mem_models_of_all {id : TypeId} {d : TypeDef} (hid : id ∈ (ofModules bases l).models)
    {q : MappedProperty} (hq : q ∈ (l.registry.view id d).all) :
    (ofModules bases l).Covers q.type := by
  obtain ⟨p, hp, hpq⟩ := Registry.mem_view_all.1 hq
  rw [(Registry.mappedProperty?_eq_some.1 hpq).2.2.1]
  exact covers_mapProperty hid hp

theorem mem_models_of_declared {id : TypeId} {d : TypeDef}
    (hclass : (ofModules bases l).IsClass id d)
    (hrepeats : (l.registry.modelBase? id).isSome → ∀ p, d.Repeats p →
      (ofModules bases l).Covers (l.registry.mapProperty p))
    {q : MappedProperty} (hq : q ∈ (l.registry.view id d).declared) :
    (ofModules bases l).Covers q.type := by
  obtain ⟨hid, hd, _⟩ := hclass
  rw [Registry.mem_view_declared] at hq
  split at hq
  · rename_i hbase
    obtain ⟨p, hp, hpq⟩ := hq
    rw [(Registry.mappedProperty?_eq_some.1 hpq).2.2.1]
    obtain ⟨ps, qs, hps⟩ := List.append_of_mem hp
    by_cases hname : p.name ∈ ps.map PropertyDef.name
    · exact hrepeats hbase p ⟨ps, qs, hps, hname⟩
    · exact covers_mapProperty hid (Registry.mem_allProperties_of_first hd hps hname)
  · exact mem_models_of_all hid hq

/-! ## References of services -/

theorem mem_models_of_seed {o : Operation} (ho : o ∈ (ofModules bases l).operations) {t : TypeRef}
    (ht : t ∈ o.types) : (ofModules bases l).Covers (l.registry.map false t) := by
  intro m name hm
  exact (models_closed bases l).seed m ⟨o, ho, t, ht, Registry.mem_modelTypes_of_map hm⟩

theorem mem_models_of_service {g : ServiceGroup}
    (hg : g ∈ (l.registry.service (ofModules bases l).controllers).groups) {m : ServiceMethod}
    (hm : m ∈ g.methods) {t : MappedType} (ht : t ∈ m.types) : (ofModules bases l).Covers t := by
  obtain ⟨c, hc, o, ho, repeated, hmethod⟩ := Registry.exists_of_mem_service hg hm
  have hmem : o ∈ (ofModules bases l).operations := List.mem_flatMap.2 ⟨c, hc, ho⟩
  rw [Registry.serviceMethod?_types hmethod, List.mem_append, List.mem_singleton] at ht
  rcases ht with ht | rfl
  · obtain ⟨p, hp, rfl⟩ := List.mem_map.1 ht
    exact mem_models_of_seed hmem (List.mem_append_right _ (List.mem_map_of_mem hp))
  · cases hreturns : o.returns with
    | none => simp [Covers]
    | some t => exact mem_models_of_seed hmem (List.mem_append_left _ (by simp [hreturns]))

/-! ## Scans -/

/-- A scan is self-contained exactly if every property that repeats a name in a class with a model
base refers to a model of the scan. In particular it is if no type lists a property name twice. -/
theorem isSelfContained_iff (bases : List String) (l : LoadedModules) :
    (ofModules bases l).IsSelfContained ↔
      ∀ id d, (ofModules bases l).IsClass id d → (l.registry.modelBase? id).isSome →
        ∀ p, d.Repeats p → (ofModules bases l).Covers (l.registry.mapProperty p) := by
  constructor
  · rintro h id d hclass hbase p ⟨ps, qs, hps, _⟩ m name hm
    have hp : p ∈ d.properties := hps ▸ List.mem_append_right _ (.head _)
    obtain ⟨q, hq, htype⟩ := Registry.exists_mem_view_declared hbase hp hm
    exact h.declared id d hclass q hq m name (by rw [htype, hm])
  · intro h
    refine ⟨?_, ?_, ?_, ?_⟩
    · intro id d hclass base hbase
      exact (models_closed bases l).base id hclass.1 base hbase
    · intro id d hclass q hq
      exact mem_models_of_all hclass.1 hq
    · intro id d hclass q hq
      exact mem_models_of_declared hclass (h id d hclass) hq
    · intro g hg m hm t ht
      exact mem_models_of_service hg hm ht

/-- A class with a model base that lists `Part` twice, as a number and as a model. -/
def repeatedPart : LoadedModules :=
  let blank := TypeDocument.shape.blank
  let part (type : String) : PropertyDocument := ⟨"Part", .named type [], [], none⟩
  Loader.load (.ofPending [("Shop", ⟨none, [
    { blank with name := "Entity", space := "Shop" },
    { blank with
      name := "Widget", space := "Shop", base := some (.named "Shop.Entity" [])
      properties := [part "int", part "Shop.Part"] },
    { blank with name := "Part", space := "Shop" },
    { blank with
      name := "WidgetController", space := "Shop.Api", base := some (.named "ApiController" [])
      methods := [⟨"GetWidget", [], [], some (.named "Shop.Widget" [])⟩] }]⟩)])

/-- The declared properties of `Widget` refer to `Part`, its effective properties do not. -/
theorem not_isSelfContained_repeatedPart :
    ¬ (ofModules ["ApiController"] repeatedPart).IsSelfContained := by
  intro h
  have hwidget : ⟨1⟩ ∈ (ofModules ["ApiController"] repeatedPart).models := by decide +kernel
  have hpart : ⟨2⟩ ∉ (ofModules ["ApiController"] repeatedPart).models := by decide +kernel
  have hbase : (repeatedPart.registry.modelBase? ⟨1⟩).isSome := by decide +kernel
  have hdeclared : (repeatedPart.registry.get? ⟨1⟩).any (fun d => d.kind == .classType &&
      d.properties.any fun p =>
        (repeatedPart.registry.mapProperty p).model? == some (⟨2⟩, "Part")) := by
    decide +kernel
  obtain ⟨d, hd, hdeclared⟩ := (Option.any_eq_true _ _).1 hdeclared
  obtain ⟨hkind, hdeclared⟩ := Bool.and_eq_true_iff.1 hdeclared
  obtain ⟨p, hp, hmodel⟩ := List.any_eq_true.1 hdeclared
  have hmodel := eq_of_beq hmodel
  obtain ⟨q, hq, htype⟩ := Registry.exists_mem_view_declared hbase hp hmodel
  have hcovers := h.declared ⟨1⟩ d ⟨hwidget, hd, eq_of_beq hkind⟩ q hq
  exact hpart (hcovers ⟨2⟩ "Part" (by rw [htype, hmodel]))

end Scan

end ApiClient
