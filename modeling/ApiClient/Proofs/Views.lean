import ApiClient.Proofs.Inheritance
import ApiClient.Proofs.Mapping
import ApiClient.Proofs.ServiceLoop

/-!
# What views are made of

Every property of a view is a property of the metadata with its mapped type, and every method of a
service is an operation of a controller.

Results:
* `mem_mappedProperties`: the mapped properties are those of the list that are not excluded.
* `mem_view_all`, `mem_view_declared`: the properties of the view of a class.
* `exists_of_mem_service`: the operation behind a method of a service.
-/

namespace ApiClient.Registry

variable {r : Registry}

/-! ## Properties -/

theorem mappedProperty?_eq_some {p : PropertyDef} {q : MappedProperty} :
    r.mappedProperty? p = some q ↔
      (r.mapProperty p).isExcluded = false ∧ q.name = p.name ∧ q.type = r.mapProperty p ∧
        q.constructible =
          ((r.mapProperty p).model?.map fun m => r.isConstructible m.1).getD false := by
  simp only [mappedProperty?, Option.ite_none_left_eq_some, Bool.not_eq_true, Option.some.injEq]
  refine and_congr_right fun _ => ?_
  cases q
  simp only [MappedProperty.mk.injEq, eq_comm]

theorem mem_mappedProperties {ps : List PropertyDef} {q : MappedProperty} :
    q ∈ r.mappedProperties ps ↔ ∃ p ∈ ps, r.mappedProperty? p = some q := by
  rw [mappedProperties, (Text.sortByText_perm _ _).mem_iff, List.mem_filterMap]

theorem mem_view_all {id : TypeId} {d : TypeDef} {q : MappedProperty} :
    q ∈ (r.view id d).all ↔ ∃ p ∈ r.allProperties id, r.mappedProperty? p = some q :=
  mem_mappedProperties

/-- The flag of a property tells whether its model can be instantiated. -/
theorem constructible_of_mem_view_all {id : TypeId} {d : TypeDef} {p : MappedProperty}
    (hp : p ∈ (r.view id d).all) :
    p.constructible = (p.type.model?.map fun m => r.isConstructible m.1).getD false := by
  obtain ⟨q, _, hq⟩ := mem_view_all.1 hp
  obtain ⟨_, _, htype, hflag⟩ := mappedProperty?_eq_some.1 hq
  rw [hflag, htype]

/-- A base that is a model is a declared type. -/
theorem exists_of_modelBase? {id base : TypeId} (h : r.modelBase? id = some base) :
    r.baseId? id = some base ∧ ∃ d, r.get? base = some d := by
  obtain ⟨hbase, hmodel⟩ := Option.filter_eq_some_iff.1 h
  rw [Bool.and_eq_true, isModel] at hmodel
  cases hd : r.get? base with
  | none => simp [hd] at hmodel
  | some d => exact ⟨hbase, d, rfl⟩

/-- The view of a class has the base that is a model. -/
theorem view_base_isSome (r : Registry) (id : TypeId) (d : TypeDef) :
    (r.view id d).base.isSome = (r.modelBase? id).isSome := by
  change ((r.modelBase? id).bind r.get?).isSome = _
  cases h : r.modelBase? id with
  | none => rfl
  | some base =>
    obtain ⟨_, d, hd⟩ := exists_of_modelBase? h
    rw [Option.bind_some, hd]
    rfl

/-- A class whose base is a model lists its own properties as they are written, any other class
lists what its view lists. -/
theorem mem_view_declared {id : TypeId} {d : TypeDef} {q : MappedProperty} :
    q ∈ (r.view id d).declared ↔
      if (r.modelBase? id).isSome then ∃ p ∈ d.properties, r.mappedProperty? p = some q
      else q ∈ (r.view id d).all := by
  rw [← view_base_isSome r id d]
  change q ∈ (if (r.view id d).base.isSome then r.mappedProperties d.properties
    else (r.view id d).all) ↔ _
  split
  · exact mem_mappedProperties
  · exact Iff.rfl

/-- A class whose base is a model declares every property that refers to a model. -/
theorem exists_mem_view_declared {id : TypeId} {d : TypeDef} (hbase : (r.modelBase? id).isSome)
    {p : PropertyDef} (hp : p ∈ d.properties) {m : TypeId × String}
    (hm : (r.mapProperty p).model? = some m) :
    ∃ q ∈ (r.view id d).declared, q.type = r.mapProperty p := by
  let q : MappedProperty := ⟨p.name, r.mapProperty p, r.isConstructible m.1⟩
  have hq : r.mappedProperty? p = some q :=
    mappedProperty?_eq_some.2
      ⟨MappedType.isExcluded_eq_false_of_model? hm, rfl, rfl, by simp [q, hm]⟩
  refine ⟨q, ?_, rfl⟩
  rw [mem_view_declared, if_pos hbase]
  exact ⟨p, hp, hq⟩

/-! ## Methods -/

theorem serviceMethod?_types {group : String} {o : Operation} {repeated : Bool} {m : ServiceMethod}
    (h : r.serviceMethod? group o repeated = some m) :
    m.types = o.parameters.map (fun p => r.map false p.type) ++
      [o.returns.elim .any (r.map false)] := by
  unfold serviceMethod? at h
  cases hverb : o.verb with
  | none => simp [hverb] at h
  | some verb =>
    simp only [hverb, Option.ite_none_left_eq_some, Option.some.injEq] at h
    obtain ⟨_, rfl⟩ := h
    simp [ServiceMethod.types]

theorem exists_of_mem_serviceMethods {group : String} {seen : List String} {os : List Operation}
    {m : ServiceMethod} (h : m ∈ r.serviceMethods group seen os) :
    ∃ o ∈ os, ∃ repeated, r.serviceMethod? group o repeated = some m := by
  induction os generalizing seen with
  | nil => simp [serviceMethods] at h
  | cons o os ih =>
    rw [serviceMethods] at h
    rcases List.mem_append.1 h with h | h
    · exact ⟨o, .head _, _, Option.mem_toList.1 h⟩
    · obtain ⟨p, hp, hm⟩ := ih h
      exact ⟨p, .tail _ hp, hm⟩

theorem exists_of_mem_service {controllers : List Controller} {g : ServiceGroup} {m : ServiceMethod}
    (hg : g ∈ (r.service controllers).groups) (hm : m ∈ g.methods) :
    ∃ c ∈ controllers, ∃ o ∈ c.operations, ∃ repeated,
      r.serviceMethod? c.group o repeated = some m := by
  rw [groups_service] at hg
  obtain ⟨c, hc, rfl⟩ := List.mem_map.1 hg
  obtain ⟨o, ho, hm⟩ := exists_of_mem_serviceMethods hm
  exact ⟨c, hc, o, (Text.sortByText_perm _ _).mem_iff.1 ho, hm⟩

end ApiClient.Registry
