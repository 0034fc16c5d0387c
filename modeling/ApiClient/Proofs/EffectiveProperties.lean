import ApiClient.Proofs.Ancestry
import ApiClient.Proofs.FirstPlaces

/-!
# Effective properties

A type has the properties that it declares and those that it inherits. Of one name the nearest
declaration counts, and in one type the first.

A declaration has a place: the number of base steps up to its type, then its place there. Base steps
go on without end where the chain is a cycle, so a declaration may have many places; the first one
counts.

Results:
* `exists_le_getElem?_lineage`: whatever base steps lead to is in the base chain, no further up.
* `isEffective_allProperties`: `allProperties` lists the declarations that count, in order.
-/

namespace ApiClient.Registry

variable {r : Registry} {id owner : TypeId} {n : ℕ} {place : ℕ ×ₗ ℕ} {p : PropertyDef}

/-! ## Specification -/

/-- So many base steps up is a type that declares the property, with so many others before it. -/
def DeclaredAt (r : Registry) (id : TypeId) (place : ℕ ×ₗ ℕ) (p : PropertyDef) : Prop :=
  ∃ owner, r.baseAfter (ofLex place).1 id = some owner ∧
    (r.ownProperties owner)[(ofLex place).2]? = some p

/-- The properties that count for a type. -/
structure IsEffective (r : Registry) (id : TypeId) (ps : List PropertyDef) : Prop where
  /-- No name comes twice. -/
  nodup : (ps.map PropertyDef.name).Nodup
  /-- The names are those that the type or an ancestor declares. -/
  names : ∀ name, name ∈ ps.map PropertyDef.name ↔
    ∃ owner, (owner = id ∨ owner ∈ r.ancestors id) ∧ ∃ p ∈ r.ownProperties owner, p.name = name
  /-- Each name has its first declaration, and these come in order: nearer types before others, and
  in one type as it declares them. -/
  first : ListsFirst PropertyDef.name (r.DeclaredAt id) ps

/-! ## Places along the chain -/

/-- The base chain has each type of it where base steps lead to it. -/
theorem baseAfter_of_getElem?_lineage (h : (id :: r.ancestors id)[n]? = some owner) :
    r.baseAfter n id = some owner := by
  cases n with
  | zero => exact h
  | succ n => exact (getElem?_ancestors.1 h).1

theorem exists_le_getElem?_lineage (h : r.baseAfter n id = some owner) :
    ∃ m ≤ n, (id :: r.ancestors id)[m]? = some owner := by
  by_cases howner : id = owner
  · exact ⟨0, Nat.zero_le n, congrArg some howner⟩
  · obtain ⟨k, rfl⟩ : ∃ k, n = k + 1 := by
      cases n with
      | zero => exact absurd (Option.some.inj h) howner
      | succ k => exact ⟨k, rfl⟩
    have hmem : owner ∈ r.ancestors id :=
      mem_ancestors.2 ⟨transGen_isBase_iff.2 ⟨k, h⟩, howner⟩
    obtain ⟨i, hi⟩ := List.mem_iff_getElem?.1 hmem
    have hle : i + 1 ≤ k + 1 := Nat.not_lt.1 fun hlt => (getElem?_ancestors.1 hi).2 _ hlt h
    exact ⟨i + 1, hle, hi⟩

/-- The properties of the types of the chain, with their places. -/
def placedProperties (r : Registry) (id : TypeId) : List ((ℕ ×ₗ ℕ) × PropertyDef) :=
  enumerate ((id :: r.ancestors id).map r.ownProperties)

theorem mem_placedProperties : (place, p) ∈ r.placedProperties id ↔
    ∃ owner, (id :: r.ancestors id)[(ofLex place).1]? = some owner ∧
      (r.ownProperties owner)[(ofLex place).2]? = some p := by
  rw [placedProperties, mem_enumerate]
  simp only [List.getElem?_map, Option.map_eq_some_iff, exists_exists_and_eq_and]

theorem declaredAt_of_mem_placedProperties (h : (place, p) ∈ r.placedProperties id) :
    r.DeclaredAt id place p := by
  obtain ⟨owner, howner, hp⟩ := mem_placedProperties.1 h
  exact ⟨owner, baseAfter_of_getElem?_lineage howner, hp⟩

/-- Where the base chain has come back to a type, its declarations were there before. -/
theorem exists_le_mem_placedProperties (h : r.DeclaredAt id place p) :
    ∃ place' ≤ place, (place', p) ∈ r.placedProperties id := by
  obtain ⟨owner, howner, hp⟩ := h
  obtain ⟨m, hm, hget⟩ := exists_le_getElem?_lineage howner
  refine ⟨toLex (m, (ofLex place).2), Prod.Lex.le_iff.2 ?_, mem_placedProperties.2 ⟨owner, hget, hp⟩⟩
  exact hm.lt_or_eq.imp_right fun heq => ⟨heq, le_rfl⟩

/-! ## Effective properties -/

theorem allProperties_eq (r : Registry) (id : TypeId) :
    r.allProperties id =
      distinctBy PropertyDef.name [] ((r.placedProperties id).map Prod.snd) := by
  rw [placedProperties, map_snd_enumerate, ← List.flatMap_def]
  rfl

/-- For every type of every registry, on a cyclic base chain too, `allProperties` has each declared
name once, with the declaration that counts. -/
theorem isEffective_allProperties (r : Registry) (id : TypeId) :
    r.IsEffective id (r.allProperties id) where
  nodup := map_distinctBy_nodup _ _ _
  names name := by
    rw [allProperties, mem_map_distinctBy, and_iff_left List.not_mem_nil, List.mem_map]
    simp only [List.mem_flatMap, List.mem_cons]
    constructor
    · rintro ⟨p, ⟨owner, howner, hp⟩, hname⟩
      exact ⟨owner, howner, p, hp, hname⟩
    · rintro ⟨owner, howner, p, hp, hname⟩
      exact ⟨p, ⟨owner, howner, hp⟩, hname⟩
  first := by
    have hlists := listsFirst_distinctBy PropertyDef.name
      (enumerate_pairwise ((id :: r.ancestors id).map r.ownProperties)) []
    rw [allProperties_eq]
    refine hlists.of_cover (fun place p h => declaredAt_of_mem_placedProperties h.1) ?_
    intro place p h
    obtain ⟨place', hle, hmem⟩ := exists_le_mem_placedProperties h
    exact ⟨place', hle, hmem, List.not_mem_nil⟩

end ApiClient.Registry
