import ApiClient.Proofs.References

/-!
# Models behind mapped types

Results:
* `model?_arrayOf`: an array refers to the model of its items.
* `mem_modelTypes_of_map`: the model that a reference is mapped to is among those that discovery
  collects from the reference.
-/

namespace ApiClient

namespace MappedType

/-- The type is an array of dates, or of arrays of them. -/
def isDateArray (t : MappedType) : Bool :=
  t.isArray && t.mentionsDate

@[simp] theorem model?_excluded : excluded.model? = none := rfl

@[simp] theorem model?_any : any.model? = none := rfl

@[simp] theorem model?_array (t : MappedType) : (array t).model? = t.model? := rfl

@[simp] theorem model?_arrayOf (t : MappedType) : t.arrayOf.model? = t.model? := by
  cases t <;> rfl

theorem isExcluded_eq_false_of_model? {t : MappedType} {m : TypeId × String}
    (h : t.model? = some m) : t.isExcluded = false := by
  cases t <;> first | rfl | simp at h

end MappedType

namespace Registry

variable {r : Registry} {utc : Bool} {m : TypeId × String}

/-- Where a type of one argument is seen through, the model is that of the argument. -/
theorem exists_of_mapOnly {args : List TypeRef} (h : (r.mapOnly utc args).model? = some m) :
    ∃ t ∈ args, (r.map utc t).model? = some m := by
  match args with
  | [] => simp [mapOnly] at h
  | [t] => exact ⟨t, .head _, by simpa [mapOnly] using h⟩
  | _ :: _ :: _ => simp [mapOnly] at h

theorem exists_of_mapElement {args : List TypeRef} (h : (r.mapElement utc args).model? = some m) :
    ∃ t ∈ args, (r.map utc t).model? = some m := by
  match args with
  | [] => simp [mapElement] at h
  | [t] => exact ⟨t, .head _, by simpa [mapElement] using h⟩
  | _ :: _ :: _ => simp [mapElement] at h

/-- The model that a library type refers to is that of an argument. -/
theorem exists_of_map_external {type : ExternalType} {args : List TypeRef}
    (h : (r.map utc (.external type args)).model? = some m) :
    ∃ t ∈ args, (r.map utc t).model? = some m := by
  rw [map] at h
  generalize type.kind = kind at h
  cases kind with
  | sequence => exact exists_of_mapElement h
  | nullable | task | void | object | other => exact exists_of_mapOnly h
  | boolean | number | text | date | map => simp [MappedType.model?, MappedType.element] at h

/-- A declared type refers to itself, or is seen through; one that is ignored refers to nothing. -/
theorem map_declared_cases {id : TypeId} {args : List TypeRef}
    (h : (r.map utc (.declared id args)).model? = some m) :
    r.isIgnored id = false ∧ (r.isModelOrEnum id = true ∧ m.1 = id ∨
      r.isModelOrEnum id = false ∧ ∃ t ∈ args, (r.map utc t).model? = some m) := by
  rw [map] at h
  split at h
  · simp at h
  · rename_i hignored
    refine ⟨by simpa using hignored, ?_⟩
    split at h
    · rename_i hmodel
      simp only [MappedType.model?, MappedType.element, Option.some.injEq] at h
      exact .inl ⟨hmodel, by rw [← h]⟩
    · rename_i hmodel
      exact .inr ⟨by simpa using hmodel, exists_of_mapOnly h⟩

theorem mem_modelTypes_of_map {t : TypeRef} (h : (r.map utc t).model? = some m) :
    m.1 ∈ r.modelTypes t := by
  induction t using TypeRef.induction with
  | declared id args ih =>
    obtain ⟨hignored, hcases⟩ := map_declared_cases h
    rw [modelTypes, hignored, if_neg (by simp), modelTypesAll_eq_flatMap]
    refine List.mem_append_left _ ?_
    rcases hcases with ⟨hmodel, hid⟩ | ⟨_, t, ht, hm⟩
    · rw [if_pos hmodel, hid]
      exact List.mem_append_left _ (List.mem_singleton_self id)
    · exact List.mem_append_right _ (List.mem_flatMap.2 ⟨t, ht, ih t ht hm⟩)
  | external type args ih =>
    obtain ⟨t, ht, hm⟩ := exists_of_map_external h
    rw [modelTypes, modelTypesAll_eq_flatMap]
    exact List.mem_flatMap.2 ⟨t, ht, ih t ht hm⟩
  | array t ih =>
    rw [map, MappedType.model?_arrayOf] at h
    rw [modelTypes]
    exact ih h

end Registry

end ApiClient
