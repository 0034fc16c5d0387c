import ApiClient.Proofs.Discovery
import ApiClient.Proofs.Mapping

/-!
# Declarations of library namespaces

A class of a library namespace is no model; an enumeration stands for itself in every namespace.
Whatever way a type is found by, it is a candidate, and every candidate is found and mapped to, so
the kind of a declaration and its marker decide.

Results:
* `exists_mem_discover_iff`, `exists_model?_iff`: the candidates are what operations lead to, and
  what references are mapped to.
* `Registry.ExcludesLibrary`: library types of a kind are neither.
* `excludesLibrary_iff`: this holds of all kinds but enumerations, and of these exactly if all those
  of library namespaces are ignored.
* `not_excludesLibrary_color`: some registry has another one.
-/

namespace ApiClient.Registry

variable {r : Registry} {id : TypeId}

/-! ## Specification -/

/-- A declaration of the kind in a library namespace. -/
def IsLibrary (r : Registry) (kind : TypeKind) (id : TypeId) : Prop :=
  ∃ d, r.get? id = some d ∧ d.kind = kind ∧ isLibraryNamespace d.space = true

/-- The declarations of the kind in library namespaces are not discovered, whatever the operations
are, and no reference is mapped to one. -/
structure ExcludesLibrary (r : Registry) (kind : TypeKind) : Prop where
  discover : ∀ operations, ∀ id ∈ r.discover operations, ¬ r.IsLibrary kind id
  map : ∀ utc t id name, (r.map utc t).model? = some (id, name) → ¬ r.IsLibrary kind id

/-! ## Candidates -/

theorem isCandidate_of_model? {utc : Bool} {t : TypeRef} {m : TypeId × String}
    (h : (r.map utc t).model? = some m) : r.isCandidate m.1 = true :=
  isCandidate_of_mem_modelTypes (mem_modelTypes_of_map h)

/-- The candidates are the types that some operations lead to. -/
theorem exists_mem_discover_iff :
    (∃ operations, id ∈ r.discover operations) ↔ r.isCandidate id = true := by
  constructor
  · rintro ⟨operations, h⟩
    exact isCandidate_of_mem_discover h
  · intro h
    -- an operation that returns the type is enough
    let o : Operation := ⟨"Get", some .get, "", [], some (.declared id [])⟩
    obtain ⟨hmodel, hignored⟩ := isCandidate_iff.1 h
    have hmentions : id ∈ r.modelTypes (.declared id []) := by
      simp [modelTypes, hignored, hmodel]
    have hseed : r.IsSeed [o] id := ⟨o, .head _, .declared id [], .head _, hmentions⟩
    exact ⟨[o], (discover_closed r [o]).seed id hseed⟩

/-- The candidates are the types that some reference is mapped to. -/
theorem exists_model?_iff :
    (∃ utc t name, (r.map utc t).model? = some (id, name)) ↔ r.isCandidate id = true := by
  constructor
  · rintro ⟨utc, t, name, h⟩
    exact isCandidate_of_model? h
  · intro h
    obtain ⟨hmodel, hignored⟩ := isCandidate_iff.1 h
    refine ⟨false, .declared id [], (r.get? id).elim "" (·.name), ?_⟩
    simp [map, hignored, hmodel, MappedType.model?, MappedType.element]

/-- The candidates of library namespaces are the enumerations that are not ignored. -/
theorem isCandidate_iff_of_isLibrary {kind : TypeKind} (h : r.IsLibrary kind id) :
    r.isCandidate id = true ↔ kind = .enumType ∧ r.isIgnored id = false := by
  obtain ⟨d, hd, rfl, hspace⟩ := h
  rw [isCandidate_iff]
  simp [isModelOrEnum, isModel, isEnum, hd, hspace]

/-! ## Exclusion -/

/-- Library types of a kind are left out everywhere, enumerations apart; these are exactly if each
of them is marked as ignored. -/
theorem excludesLibrary_iff (r : Registry) (kind : TypeKind) :
    r.ExcludesLibrary kind ↔
      (kind = .enumType → ∀ id, r.IsLibrary .enumType id → r.isIgnored id = true) := by
  constructor
  · rintro h rfl id hlibrary
    cases hignored : r.isIgnored id with
    | true => rfl
    | false =>
      have hcandidate := (isCandidate_iff_of_isLibrary hlibrary).2 ⟨rfl, hignored⟩
      obtain ⟨operations, hid⟩ := exists_mem_discover_iff.2 hcandidate
      exact absurd hlibrary (h.discover operations id hid)
  · intro h
    have hcandidate : ∀ id, r.isCandidate id = true → ¬ r.IsLibrary kind id := by
      intro id hid hlibrary
      obtain ⟨rfl, hignored⟩ := (isCandidate_iff_of_isLibrary hlibrary).1 hid
      rw [h rfl id hlibrary] at hignored
      contradiction
    exact ⟨fun _ id hid => hcandidate id (isCandidate_of_mem_discover hid),
      fun _ _ id _ hid => hcandidate id (isCandidate_of_model? hid)⟩

/-- An enumeration of a library namespace. -/
def systemColor : Registry where
  types := [⟨⟨"Shop", "System.Drawing", "Color", .enumType⟩, .empty⟩]
  nodup := by decide

/-- An operation that returns `Color` leads to it. -/
theorem not_excludesLibrary_color : ¬ systemColor.ExcludesLibrary .enumType := by
  intro h
  let o : Operation := ⟨"GetColor", some .get, "Paint", [], some (.declared ⟨0⟩ [])⟩
  have hcolor : ⟨0⟩ ∈ systemColor.discover [o] := by decide +kernel
  have hlibrary : isLibraryNamespace "System.Drawing" = true := by decide +kernel
  exact h.discover [o] ⟨0⟩ hcolor ⟨_, rfl, rfl, hlibrary⟩

end ApiClient.Registry
