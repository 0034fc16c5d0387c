import ApiClient.Proofs.Exclusion
import ApiClient.Proofs.Exports
import Mathlib.Algebra.Ring.Nat
import Mathlib.Data.List.Forall2

/-!
# Services of controllers

The service of controllers is gathered in one loop: the operations of each controller are sorted and
tried one after the other, and what the service imports is what the methods mention that come of it.

Results:
* `forall₂_serviceMethods`: the methods for operations, in the order of these, are those of the ones
  that can be served.
* `isServedOrder_sortByText`: these come by name and, of one name, as they were declared.
* `Registry.IsServiceOf`: what a service is for a list of controllers.
* `isServiceOf_service`: the service of controllers is one.
-/

namespace ApiClient

variable {r : Registry}

/-! ## Specification -/

namespace Registry

/-- An operation has a method: it has a verb and mentions no excluded type. -/
structure IsServed (r : Registry) (o : Operation) : Prop where
  verb : o.verb ≠ none
  returns : ∀ t ∈ o.returns, r.map false t ≠ .excluded
  parameters : ∀ p ∈ o.parameters, r.map false p.type ≠ .excluded

/-- A method calls the operation with its parameters and gives what it returns, as an instance of
its model if it has one that can be instantiated. -/
structure IsMethodOf (r : Registry) (o : Operation) (m : ServiceMethod) : Prop where
  operation : m.operation = o.name
  name : m.name = Text.camelize o.name
  verb : o.verb = some m.verb
  parameters : m.parameters = o.parameters.map fun p => (p.name, r.map false p.type)
  returns : m.returns = o.returns.elim .any (r.map false)
  construction : m.construction = TypeScript.Construction.of? r m.returns

theorem isServed_iff {o : Operation} {group : String} {repeated : Bool} :
    r.IsServed o ↔ (r.serviceMethod? group o repeated).isSome = true := by
  have hexcluded : ∀ t : MappedType, t.isExcluded = false ↔ t ≠ .excluded := by
    intro t
    cases t <;> simp [MappedType.isExcluded]
  rw [isSome_serviceMethod?]
  simp only [hexcluded, Option.isSome_iff_ne_none]
  exact ⟨fun h => ⟨h.verb, h.returns, h.parameters⟩, fun h => ⟨h.1, h.2.1, h.2.2⟩⟩

instance {o : Operation} : Decidable (r.IsServed o) :=
  decidable_of_iff ((r.serviceMethod? "" o false).isSome = true) isServed_iff.symm

/-- The operations that are served, by name; those of one name come as they were declared. -/
structure IsServedOrder (r : Registry) (os ordered : List Operation) : Prop where
  perm : ordered.Perm (os.filter (r.IsServed ·))
  sorted : ordered.Pairwise fun a b => a.name ≤ b.name
  stable : ∀ name, ordered.filter (·.name = name) =
    (os.filter (r.IsServed ·)).filter (·.name = name)

/-- The group is that of a controller: it has one method for each operation that is served. -/
structure IsGroupOf (r : Registry) (c : Controller) (g : ServiceGroup) : Prop where
  controller : g.controller = c.name
  name : g.name = Text.camelize c.group
  methods : ∃ ordered, r.IsServedOrder c.operations ordered ∧
    List.Forall₂ r.IsMethodOf ordered g.methods

end Registry

/-- The type is mentioned by a method of the service. -/
def Service.Mentions (s : Service) (t : MappedType) : Prop :=
  ∃ g ∈ s.groups, ∃ m ∈ g.methods, t ∈ m.types

/-- The service is that of controllers: it has a group for each of them, in their order, and imports
what its methods mention. -/
structure Registry.IsServiceOf (r : Registry) (controllers : List Controller) (s : Service) :
    Prop where
  groups : List.Forall₂ r.IsGroupOf controllers s.groups
  imports_sorted : (s.imports.map Import.name).Pairwise (· < ·)
  mem_imports : ∀ name, name ∈ s.imports.map Import.name ↔
    ∃ t, s.Mentions t ∧ ∃ id, t.element = .model id name
  usesMoment : s.usesMoment = true ↔ ∃ t, s.Mentions t ∧ ∃ utc, t.element = .date utc
  size : s.size = (s.groups.map fun g => g.methods.length).sum

/-! ## Types seen through arrays -/

theorem MappedType.model?_eq_some_iff {t : MappedType} {m : TypeId × String} :
    t.model? = some m ↔ t.element = .model m.1 m.2 := by
  obtain ⟨id, name⟩ := m
  unfold model?
  split <;> rename_i h <;> simp_all

theorem MappedType.mentionsDate_iff {t : MappedType} :
    t.mentionsDate = true ↔ ∃ utc, t.element = .date utc := by
  unfold mentionsDate
  split <;> rename_i h <;> simp_all

/-- Imports are in the order of their names, and no name comes twice. -/
theorem Import.collect_pairwise (named : List Import) :
    ((Import.collect named).map Import.name).Pairwise (· < ·) := by
  rw [Import.collect_eq]
  exact List.pairwise_map.2 (Text.sortByText_pairwise_lt (map_distinctBy_nodup _ _ _))

/-! ## Methods -/

namespace Registry

theorem isMethodOf_of_serviceMethod? {group : String} {o : Operation} {repeated : Bool}
    {m : ServiceMethod} (h : r.serviceMethod? group o repeated = some m) : r.IsMethodOf o m := by
  unfold serviceMethod? at h
  cases hverb : o.verb with
  | none => simp [hverb] at h
  | some verb =>
    simp only [hverb, Option.ite_none_left_eq_some, Option.some.injEq] at h
    obtain ⟨_, rfl⟩ := h
    exact ⟨rfl, rfl, hverb, rfl, rfl, rfl⟩

/-- An operation that is not served leaves no method; of the other ones none is lost. -/
theorem forall₂_serviceMethods (group : String) (seen : List String) (os : List Operation) :
    List.Forall₂ r.IsMethodOf (os.filter (r.IsServed ·)) (r.serviceMethods group seen os) := by
  induction os generalizing seen with
  | nil => exact .nil
  | cons o os ih =>
    rw [serviceMethods]
    generalize hrepeated : seen.contains (Text.lower o.name) = repeated
    have hserved : r.IsServed o ↔ (r.serviceMethod? group o repeated).isSome = true := isServed_iff
    cases hmethod : r.serviceMethod? group o repeated with
    | none =>
      rw [List.filter_cons_of_neg (by simp [hserved, hmethod])]
      exact ih _
    | some m =>
      rw [List.filter_cons_of_pos (by simp [hserved, hmethod])]
      exact .cons (isMethodOf_of_serviceMethod? hmethod) (ih _)

theorem isServedOrder_sortByText (os : List Operation) :
    r.IsServedOrder os ((Text.sortByText Operation.name os).filter (r.IsServed ·)) where
  perm := (Text.sortByText_perm Operation.name os).filter _
  sorted := ((Text.sortByText_pairwise Operation.name os).imp Text.atMost_iff.1).filter _
  stable name := by
    rw [List.filter_comm, Text.filter_sortByText, List.filter_comm]

theorem isGroupOf_serviceGroup (c : Controller) : r.IsGroupOf c (r.serviceGroup c) where
  controller := rfl
  name := rfl
  methods := ⟨_, isServedOrder_sortByText c.operations, forall₂_serviceMethods c.group [] _⟩

/-! ## Services -/

theorem mentions_service {controllers : List Controller} {t : MappedType} :
    (r.service controllers).Mentions t ↔
      t ∈ ServiceGroup.typesOf (controllers.map r.serviceGroup) := by
  rw [Service.Mentions, groups_service, ServiceGroup.typesOf]
  simp only [List.mem_flatMap]

theorem usesMoment_service {controllers : List Controller} :
    (r.service controllers).usesMoment = true ↔
      ∃ t, (r.service controllers).Mentions t ∧ ∃ utc, t.element = .date utc := by
  simp only [mentions_service]
  rw [service_eq, List.any_eq_true]
  simp only [MappedType.mentionsDate_iff]

/-- The service of controllers has one group for each and one method for each operation that can be
served, and imports what these mention: an operation that is not served leaves no trace. -/
theorem isServiceOf_service (r : Registry) (controllers : List Controller) :
    r.IsServiceOf controllers (r.service controllers) where
  groups := by
    rw [groups_service]
    refine List.forall₂_map_right_iff.2 (List.forall₂_same.2 fun c _ => ?_)
    exact isGroupOf_serviceGroup c
  imports_sorted := by
    rw [imports_service]
    exact Import.collect_pairwise _
  mem_imports := by
    intro name
    simp only [mem_imports_service, MappedType.model?_eq_some_iff]
    constructor
    · rintro ⟨g, hg, m, hm, t, ht, hmodel⟩
      exact ⟨t, ⟨g, hg, m, hm, ht⟩, hmodel⟩
    · rintro ⟨t, ⟨g, hg, m, hm, ht⟩, hmodel⟩
      exact ⟨g, hg, m, hm, t, ht, hmodel⟩
  usesMoment := usesMoment_service
  size := List.length_flatMap

end Registry

end ApiClient
