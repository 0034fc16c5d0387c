import ApiClient.Proofs.DeclaredMembers
import ApiClient.Proofs.MappingSpine
import ApiClient.Proofs.ServiceMethods

/-!
# Shapes of responses

The service makes an instance of the class of a response, or one of each item if the response is an
array. It looks for the class below all arrays, but for items below the first one only. A view of a
class does the same for the fields, and there an array of arrays is left as it comes.

Results:
* `construction?_eq_some_iff`: a construction is that of the class below all arrays, and it is of
  items if there is an array at all.
* `exists_arguments_call`: the text of a request calls what makes the instances on the arguments of
  its construction.
* `map_eq_iterate_model_iff`: the references whose type is a model below a number of arrays.
* `Registry.ConstructsModels`: instances are made of the values of a class and never of an array,
  and of a property just when they are made of a response.
* `constructsBy_view`: a property in the view of a class.
* `constructsModels_iff`: this holds exactly if the type is not an array of arrays of a class that
  has instances.
* `not_constructsModels_grid`: some response is.
-/

namespace ApiClient

open Text TypeScript

/-! ## Specification -/

/-- The value is one of the type as far as arrays go: the items of an array are of its element type,
and no model is an array. -/
def MappedType.Describes : MappedType → Json.Value → Prop
  | .array t, v => ∃ items, v = .array items ∧ ∀ a ∈ items, t.Describes a
  | .model _ _, v => ∀ items, v ≠ .array items
  | _, _ => True

/-- The type that the construction is for. -/
def TypeScript.Construction.shape (c : Construction) (id : TypeId) : MappedType :=
  if c.ofItems then .array (.model id c.name) else .model id c.name

/-- What the constructor, or the function that revives an interface, is applied to in a response. -/
def TypeScript.Construction.arguments (c : Construction) : Json.Value → List Json.Value
  | .array items => if c.ofItems then items else [.array items]
  | v => if c.ofItems then [] else [v]

/-- The view makes instances of the property by the construction, or none if there is none. -/
structure ModelView.ConstructsBy (v : ModelView) (property : String) (c : Option Construction) :
    Prop where
  model : ∀ name, (property, name) ∈ v.modelProperties ↔ c = some ⟨name, false⟩
  items : ∀ name, (property, name) ∈ v.modelArrayProperties ↔ c = some ⟨name, true⟩

namespace Registry

/-- Of a response of the type, instances are made of the values of a class and never of an array; and
views do the same with properties of the type. -/
structure ConstructsModels (r : Registry) (t : TypeRef) : Prop where
  shape : ∀ c, Construction.of? r (r.map false t) = some c →
    ∃ id, r.isConstructible id = true ∧ r.map false t = c.shape id
  arguments : ∀ c, Construction.of? r (r.map false t) = some c →
    ∀ v, (r.map false t).Describes v → ∀ a ∈ c.arguments v, ∀ items, a ≠ .array items
  views : ∀ v : ModelView, (v.all.map MappedProperty.name).Nodup →
    ∀ p q, p.type = t → r.mappedProperty? p = some q → q ∈ v.all →
      v.ConstructsBy q.name (Construction.of? r (r.map false t))

/-- The type is an array of arrays, maybe of more arrays, of a class that has instances. -/
def NestsInstances (r : Registry) (t : TypeRef) : Prop :=
  ∃ n id args, r.Spine t (n + 2) (.declared id args) ∧ r.isIgnored id = false ∧
    r.isModel id = true ∧ r.isConstructible id = true

end Registry

/-! ## Arrays -/

namespace MappedType

variable {t u : MappedType} {n m : ℕ}

theorem exists_eq_iterate_array (t : MappedType) : ∃ n, t = array^[n] t.element := by
  induction t with
  | array t ih =>
    obtain ⟨n, hn⟩ := ih
    refine ⟨n + 1, ?_⟩
    rw [Function.iterate_succ_apply', element, ← hn]
  | excluded | primitive | date | model | any => exact ⟨0, rfl⟩

theorem isArray_iterate_array (h : t.isArray = false) :
    (array^[n] t).isArray = decide (0 < n) := by
  cases n with
  | zero => simpa using h
  | succ n => rw [Function.iterate_succ_apply']; simp [isArray]

/-- Arrays can be counted where what they hold is no array. -/
theorem iterate_array_inj (ht : t.isArray = false) (hu : u.isArray = false)
    (h : array^[n] t = array^[m] u) : n = m ∧ t = u := by
  induction n generalizing m with
  | zero =>
    cases m with
    | zero => exact ⟨rfl, h⟩
    | succ m =>
      rw [Function.iterate_succ_apply', Function.iterate_zero_apply] at h
      rw [h] at ht
      cases ht
  | succ n ih =>
    cases m with
    | zero =>
      rw [Function.iterate_succ_apply', Function.iterate_zero_apply] at h
      rw [← h] at hu
      cases hu
    | succ m =>
      rw [Function.iterate_succ_apply', Function.iterate_succ_apply'] at h
      obtain ⟨rfl, rfl⟩ := ih (array.inj h)
      exact ⟨rfl, rfl⟩

end MappedType

/-! ## Constructions -/

variable {r : Registry} {t : MappedType} {c : Construction}

theorem TypeScript.construction?_eq_some_iff : Construction.of? r t = some c ↔
    ∃ n id, t = MappedType.array^[n] (.model id c.name) ∧ r.isConstructible id = true ∧
      c.ofItems = decide (0 < n) := by
  have hof : Construction.of? r t = some c ↔ ∃ id, t.model? = some (id, c.name) ∧
      r.isConstructible id = true ∧ t.isArray = c.ofItems := by
    unfold Construction.of?
    obtain ⟨name, ofItems⟩ := c
    cases t.model? with
    | none => simp
    | some m =>
      simp only [Option.ite_none_right_eq_some, Option.some.injEq, Construction.mk.injEq]
      constructor
      · rintro ⟨hconstructible, rfl, hitems⟩
        exact ⟨m.1, rfl, hconstructible, hitems⟩
      · rintro ⟨id, rfl, hconstructible, hitems⟩
        exact ⟨hconstructible, rfl, hitems⟩
  rw [hof]
  constructor
  · rintro ⟨id, hmodel, hconstructible, hitems⟩
    obtain ⟨n, hn⟩ := t.exists_eq_iterate_array
    rw [MappedType.model?_eq_some_iff.1 hmodel] at hn
    refine ⟨n, id, hn, hconstructible, ?_⟩
    rw [← hitems, hn, MappedType.isArray_iterate_array rfl]
  · rintro ⟨n, id, rfl, hconstructible, hitems⟩
    refine ⟨id, MappedType.model?_eq_some_iff.2 ?_, hconstructible, ?_⟩
    · rw [MappedType.element_iterate_array]
      rfl
    · rw [hitems, MappedType.isArray_iterate_array rfl]

theorem TypeScript.arguments_application (c : Construction) (f value item : String) :
    (c.application f value item).arguments = c.arguments := by
  funext v
  obtain ⟨name, _ | _⟩ := c <;> cases v <;> rfl

/-- The request of a method says so: for each dialect it has code that calls what makes the
instances, on the arguments of the construction. -/
theorem TypeScript.exists_arguments_call {m : ServiceMethod} (o : Options)
    (h : m.construction = some c) : ∃ a : Application, a.function ++ "(" = o.creation c.name ∧
      IsWithin a.text (o.call m) ∧ a.arguments = c.arguments := by
  obtain ⟨f, value, item, hf, hcall⟩ := exists_application_call (o := o) h
  exact ⟨_, hf, hcall, arguments_application c f value item⟩

/-- A date in universal time has no construction, as one in local time. -/
theorem TypeScript.construction?_map (r : Registry) (utc : Bool) (t : TypeRef) :
    Construction.of? r (r.map utc t) = Construction.of? r (r.map false t) := by
  have hdate : ∀ n utc, Construction.of? r (MappedType.array^[n] (.date utc)) = none := by
    intro n utc
    rw [Construction.of?, MappedType.model?, MappedType.element_iterate_array]
    rfl
  rcases r.map_eq_or_date t utc false with heq | ⟨n, htrue, hfalse⟩
  · rw [heq]
  · rw [htrue, hfalse, hdate, hdate]

/-! ## References -/

namespace Registry

variable {r : Registry} {t : TypeRef} {utc : Bool} {n : ℕ} {id : TypeId} {name : String}

theorem isArray_leafType (r : Registry) (utc : Bool) (leaf : TypeRef) :
    (r.leafType utc leaf).isArray = false := by
  unfold leafType
  split
  · split
    · split <;> rfl
    · rfl
  · split <;> rfl
  · rfl

theorem leafType_eq_model_iff {leaf : TypeRef} : r.leafType utc leaf = .model id name ↔
    ∃ args d, leaf = .declared id args ∧ r.isModelOrEnum id = true ∧ r.get? id = some d ∧
      d.name = name := by
  unfold leafType
  constructor
  · intro h
    split at h
    · rename_i id' args
      split at h
      · rename_i d hget
        split at h
        · rename_i hmodel
          obtain ⟨rfl, rfl⟩ := MappedType.model.inj h
          exact ⟨args, d, rfl, hmodel, hget, rfl⟩
        · cases h
      · cases h
    · split at h <;> cases h
    · cases h
  · rintro ⟨args, d, rfl, hmodel, hget, rfl⟩
    simp [hmodel, hget]

theorem map_eq_iterate_model_iff : r.map utc t = MappedType.array^[n] (.model id name) ↔
    ∃ args d, r.Spine t n (.declared id args) ∧ r.isIgnored id = false ∧
      r.isModelOrEnum id = true ∧ r.get? id = some d ∧ d.name = name := by
  constructor
  · intro h
    obtain ⟨m, leaf, hspine⟩ := r.exists_spine t
    have hignored : ¬ r.RefersToIgnored leaf := by
      intro hignored
      have helement := congrArg MappedType.element h
      rw [(map_eq_excluded_iff hspine).2 hignored, MappedType.element_iterate_array] at helement
      cases helement
    rw [(map_of_not_refersToIgnored hspine hignored).1] at h
    obtain ⟨rfl, hleaf⟩ := MappedType.iterate_array_inj (r.isArray_leafType utc leaf) rfl h
    obtain ⟨args, d, rfl, hmodel, hget, hname⟩ := leafType_eq_model_iff.1 hleaf
    refine ⟨args, d, hspine, Bool.eq_false_iff.2 fun htrue => ?_, hmodel, hget, hname⟩
    exact hignored ⟨id, args, rfl, htrue⟩
  · rintro ⟨args, d, hspine, hignored, hmodel, hget, hname⟩
    have hleaf : ¬ r.RefersToIgnored (.declared id args) := by
      rintro ⟨id', args', heq, hignored'⟩
      obtain ⟨rfl, rfl⟩ := TypeRef.declared.inj heq
      rw [hignored] at hignored'
      cases hignored'
    rw [(map_of_not_refersToIgnored hspine hleaf).1,
      leafType_eq_model_iff.2 ⟨args, d, rfl, hmodel, hget, hname⟩]

/-- Of models and enumerations only the models can be instantiated. -/
theorem isModel_of_isConstructible (h : r.isModelOrEnum id = true)
    (hconstructible : r.isConstructible id = true) : r.isModel id = true := by
  rcases Bool.or_eq_true_iff.1 h with hmodel | henum
  · exact hmodel
  · unfold isEnum at henum
    unfold isConstructible at hconstructible
    cases hget : r.get? id with
    | none => simp [hget] at henum
    | some d => simp_all [TypeDef.isConstructible]

/-- Such a type is mapped to two arrays or more around the class. -/
theorem nestsInstances_iff : r.NestsInstances t ↔
    ∃ n id name, r.map utc t = MappedType.array^[n + 2] (.model id name) ∧
      r.isConstructible id = true := by
  unfold NestsInstances
  simp only [map_eq_iterate_model_iff]
  constructor
  · rintro ⟨n, id, args, hspine, hignored, hmodel, hconstructible⟩
    obtain ⟨d, hget, _⟩ := (Option.any_eq_true _ _).1 hconstructible
    exact ⟨n, id, d.name, ⟨args, d, hspine, hignored, by simp [isModelOrEnum, hmodel], hget, rfl⟩,
      hconstructible⟩
  · rintro ⟨n, id, name, ⟨args, d, hspine, hignored, hmodel, _, _⟩, hconstructible⟩
    exact ⟨n, id, args, hspine, hignored, isModel_of_isConstructible hmodel hconstructible,
      hconstructible⟩

end Registry

/-! ## Views -/

namespace ModelView

variable {v : ModelView} {q : MappedProperty}

/-- Where no name comes twice, a property is listed with a model exactly if its type has the shape
for that model. -/
theorem mem_filterMap_all_iff {f : MappedProperty → Option (String × String)}
    (shape : TypeId → String → MappedType)
    (hf : ∀ p other name, f p = some (other, name) ↔
      p.name = other ∧ p.constructible = true ∧ ∃ id, p.type = shape id name)
    (hnames : (v.all.map MappedProperty.name).Nodup) (hq : q ∈ v.all) {name : String} :
    (q.name, name) ∈ v.all.filterMap f ↔
      q.constructible = true ∧ ∃ id, q.type = shape id name := by
  rw [List.mem_filterMap]
  constructor
  · rintro ⟨p, hp, h⟩
    obtain ⟨hname, hshape⟩ := (hf p q.name name).1 h
    obtain rfl := List.inj_on_of_nodup_map hnames hp hq hname
    exact hshape
  · intro hshape
    exact ⟨q, hq, (hf q q.name name).2 ⟨rfl, hshape⟩⟩

theorem mem_modelProperties_iff (hnames : (v.all.map MappedProperty.name).Nodup) (hq : q ∈ v.all)
    {name : String} : (q.name, name) ∈ v.modelProperties ↔
      q.constructible = true ∧ ∃ id, q.type = .model id name := by
  refine mem_filterMap_all_iff .model (fun p other name => ?_) hnames hq
  split <;> rename_i htype
  · simp [htype, and_left_comm]
  · exact ⟨nofun, fun ⟨_, _, id, hshape⟩ => (htype id name hshape).elim⟩

theorem mem_modelArrayProperties_iff (hnames : (v.all.map MappedProperty.name).Nodup)
    (hq : q ∈ v.all) {name : String} : (q.name, name) ∈ v.modelArrayProperties ↔
      q.constructible = true ∧ ∃ id, q.type = .array (.model id name) := by
  refine mem_filterMap_all_iff (fun id name => .array (.model id name)) (fun p other name => ?_)
    hnames hq
  split <;> rename_i htype
  · simp [htype, and_left_comm]
  · exact ⟨nofun, fun ⟨_, _, id, hshape⟩ => (htype id name hshape).elim⟩

end ModelView

/-! ## Instances of models -/

namespace Registry

variable {r : Registry} {t : TypeRef} {utc : Bool} {c : Construction}

theorem exists_shape (h : ¬ r.NestsInstances t)
    (hc : Construction.of? r (r.map utc t) = some c) :
    ∃ id, r.isConstructible id = true ∧ r.map utc t = c.shape id := by
  obtain ⟨n, id, htype, hconstructible, hitems⟩ := construction?_eq_some_iff.1 hc
  refine ⟨id, hconstructible, ?_⟩
  unfold Construction.shape
  rw [hitems, htype]
  match n with
  | 0 | 1 => rfl
  | n + 2 => exact absurd (nestsInstances_iff.2 ⟨n, id, c.name, htype, hconstructible⟩) h

theorem construction?_shape {id : TypeId} (hconstructible : r.isConstructible id = true) :
    Construction.of? r (c.shape id) = some c := by
  rw [construction?_eq_some_iff]
  unfold Construction.shape
  cases c.ofItems with
  | true => exact ⟨1, id, rfl, hconstructible, rfl⟩
  | false => exact ⟨0, id, rfl, hconstructible, rfl⟩

/-- A view makes instances of a property where its type is that of a construction. -/
theorem construction?_property_iff {p : PropertyDef} {q : MappedProperty}
    (h : ¬ r.NestsInstances p.type) (hq : r.mappedProperty? p = some q) :
    Construction.of? r (r.map false p.type) = some c ↔
      q.constructible = true ∧ ∃ id, q.type = c.shape id := by
  obtain ⟨_, _, htype, hflag⟩ := mappedProperty?_eq_some.1 hq
  have hmodel : ∀ id, q.type = c.shape id → q.constructible = r.isConstructible id := by
    intro id hshape
    rw [hflag, ← htype, hshape]
    unfold Construction.shape
    cases c.ofItems <;> rfl
  rw [← construction?_map r (p.markers.contains .utcDate)]
  constructor
  · intro hc
    obtain ⟨id, hconstructible, hshape⟩ := exists_shape h hc
    have hshape : q.type = c.shape id := htype.trans hshape
    exact ⟨(hmodel id hshape).trans hconstructible, id, hshape⟩
  · rintro ⟨hconstructible, id, hshape⟩
    rw [show r.map _ p.type = c.shape id from htype.symm.trans hshape]
    exact construction?_shape ((hmodel id hshape).symm.trans hconstructible)

/-- In a value of the type that a construction is for, it finds no array. -/
theorem ne_array_of_mem_arguments {id : TypeId} {v a : Json.Value}
    (hv : (c.shape id).Describes v) (ha : a ∈ c.arguments v) (items : List Json.Value) :
    a ≠ .array items := by
  unfold Construction.shape at hv
  cases hitems : c.ofItems with
  | true =>
    rw [hitems, if_pos rfl] at hv
    obtain ⟨values, rfl, hvalues⟩ := hv
    rw [Construction.arguments, hitems, if_pos rfl] at ha
    exact hvalues a ha items
  | false =>
    rw [hitems, if_neg (by simp)] at hv
    have hargument : c.arguments v = [v] := by
      cases v <;> simp [Construction.arguments, hitems]
    obtain rfl := List.mem_singleton.1 (hargument ▸ ha)
    exact hv items

theorem constructsBy_of_mem_all {p : PropertyDef} {q : MappedProperty} {v : ModelView}
    (h : ¬ r.NestsInstances p.type) (hnames : (v.all.map MappedProperty.name).Nodup)
    (hq : r.mappedProperty? p = some q) (hmem : q ∈ v.all) :
    v.ConstructsBy q.name (Construction.of? r (r.map false p.type)) where
  model name := by
    rw [ModelView.mem_modelProperties_iff hnames hmem, construction?_property_iff h hq]
    rfl
  items name := by
    rw [ModelView.mem_modelArrayProperties_iff hnames hmem, construction?_property_iff h hq]
    rfl

/-- In particular a view of a class makes instances as the service does. -/
theorem constructsBy_view {p : PropertyDef} {q : MappedProperty} (h : ¬ r.NestsInstances p.type)
    {id : TypeId} (hp : p ∈ r.allProperties id) (hq : r.mappedProperty? p = some q) (d : TypeDef) :
    (r.view id d).ConstructsBy q.name (Construction.of? r (r.map false p.type)) :=
  constructsBy_of_mem_all h (r.nodup_names_view id d) hq (mem_view_all.2 ⟨p, hp, hq⟩)

/-- Instances are made of the values of a class, of a response and of a property alike, exactly if
the type is not an array of arrays of a class that has instances. -/
theorem constructsModels_iff (r : Registry) (t : TypeRef) :
    r.ConstructsModels t ↔ ¬ r.NestsInstances t := by
  constructor
  · intro h hnests
    obtain ⟨n, id, name, htype, hconstructible⟩ := nestsInstances_iff.1 hnests
    obtain ⟨id', _, hshape⟩ := h.shape ⟨name, true⟩
      (construction?_eq_some_iff.2 ⟨n + 2, id, htype, hconstructible, by simp⟩)
    -- The type has `n + 2` arrays, the shape of a construction of items has one.
    have harrays : MappedType.array^[n + 2] (.model id name) =
        MappedType.array^[1] (.model id' name) := htype.symm.trans hshape
    have hcount := (MappedType.iterate_array_inj rfl rfl harrays).1
    omega
  · intro h
    exact {
      shape := fun c hc => exists_shape h hc
      arguments := by
        intro c hc v hv a ha
        obtain ⟨id, _, hshape⟩ := exists_shape h hc
        exact ne_array_of_mem_arguments (hshape ▸ hv) ha
      views := by
        rintro v hnames p q rfl hq hmem
        exact constructsBy_of_mem_all h hnames hq hmem }

/-- A class without anything. -/
def cell : TypeDef where
  toDeclaration := ⟨"Shop", "", "Cell", .classType⟩
  toBody := Body.empty

/-- The class alone. -/
def grid : Registry where
  types := [cell]
  nodup := by decide

/-- Of an array of arrays of the class, an instance is made of each inner array. -/
theorem not_constructsModels_grid :
    ¬ grid.ConstructsModels (.array (.array (.declared ⟨0⟩ []))) := by
  intro h
  have hconstruction : Construction.of? grid (grid.map false (.array (.array (.declared ⟨0⟩ [])))) =
      some ⟨"Cell", true⟩ := by decide +kernel
  have hmap : grid.map false (.array (.array (.declared ⟨0⟩ []))) =
      .array (.array (.model ⟨0⟩ "Cell")) := by decide +kernel
  have hdescribes : (grid.map false (.array (.array (.declared ⟨0⟩ [])))).Describes
      (.array [.array []]) := by
    rw [hmap]
    refine ⟨_, rfl, fun a ha => ?_⟩
    obtain rfl := List.mem_singleton.1 ha
    exact ⟨[], rfl, nofun⟩
  exact h.arguments _ hconstruction _ hdescribes (.array []) (.head _) [] rfl

end Registry

end ApiClient
