import ApiClient.Proofs.Inheritance
import ApiClient.Proofs.Reachability
import ApiClient.Proofs.References
import Mathlib.Order.Bounds.Defs

/-!
# Discovery finds the least closed set

`Registry.discover` takes what the signatures of operations mention, adds descendants once, and then
walks over bases and properties with a stack. Base chains and property graphs may be cyclic.

Results:
* `IsClosed`: the sets that hold what discovery must find.
* `mem_neededClosure_sorted`: the walk may take its start from the stack in any order.
* `discover_closed`, `mem_of_mem_discover`: what is found is such a set, and lies in all others.
* `isCandidate_of_mem_discover`: all that is found is a model or an enumeration and not ignored.
* `discover_isLeast`: both together. So neither the order of the operations nor their number of
  occurrences matters.
-/

namespace ApiClient

/-- The references in the signature of an operation: what it returns, then its parameters. -/
def Operation.types (o : Operation) : List TypeRef :=
  o.returns.toList ++ o.parameters.map (·.type)

namespace Registry

variable {r : Registry}

/-! ## Specification -/

/-- The signature of an operation mentions the type. -/
def IsSeed (r : Registry) (operations : List Operation) (id : TypeId) : Prop :=
  ∃ o ∈ operations, ∃ t ∈ o.types, id ∈ r.modelTypes t

/-- A set with all that generated code for the operations needs. -/
structure IsClosed (r : Registry) (operations : List Operation) (s : Set TypeId) : Prop where
  seed : ∀ id, r.IsSeed operations id → id ∈ s
  /-- Descendants of a seed that its own module declares. -/
  derived : ∀ id seed, r.IsSeed operations seed → r.Descends id seed →
    r.moduleOf id = r.moduleOf seed → r.isCandidate id = true → id ∈ s
  base : ∀ id ∈ s, ∀ base, r.modelBase? id = some base → base ∈ s
  property : ∀ id ∈ s, ∀ p ∈ r.allProperties id, ∀ m ∈ r.modelTypes p.type, m ∈ s

/-! ## Candidates -/

theorem isCandidate_iff {id : TypeId} :
    r.isCandidate id = true ↔ r.isModelOrEnum id = true ∧ r.isIgnored id = false := by
  rw [isCandidate, Bool.and_eq_true, Bool.not_eq_true']

theorem mem_ids_of_isCandidate {id : TypeId} (h : r.isCandidate id = true) : id ∈ r.ids := by
  cases hd : r.get? id with
  | none => simp [isCandidate, isModelOrEnum, isModel, isEnum, hd] at h
  | some d => exact mem_ids.2 ⟨d, hd⟩

/-- A candidate is a declared enumeration, or a class outside the framework's namespaces. -/
theorem exists_of_isCandidate {id : TypeId} (h : r.isCandidate id = true) :
    ∃ d, r.get? id = some d ∧ d.hasMarker .ignore = false ∧
      (d.kind = .enumType ∨ d.kind = .classType ∧ isLibraryNamespace d.space = false) := by
  obtain ⟨d, hd⟩ := mem_ids.1 (mem_ids_of_isCandidate h)
  obtain ⟨hkind, hignored⟩ := isCandidate_iff.1 h
  refine ⟨d, hd, by simpa [isIgnored, hd] using hignored, ?_⟩
  simpa [isModelOrEnum, isModel, isEnum, hd, or_comm] using hkind

theorem isCandidate_of_modelBase {id base : TypeId} (h : r.modelBase? id = some base) :
    r.isCandidate base = true := by
  obtain ⟨_, hbase⟩ := Option.filter_eq_some_iff.1 h
  rw [Bool.and_eq_true, Bool.not_eq_true'] at hbase
  exact isCandidate_iff.2 ⟨by rw [isModelOrEnum, hbase.1, Bool.true_or], hbase.2⟩

/-- What a reference mentions are candidates. -/
theorem isCandidate_of_mem_modelTypes {t : TypeRef} {id : TypeId} (h : id ∈ r.modelTypes t) :
    r.isCandidate id = true := by
  induction t using TypeRef.induction with
  | declared a args ih =>
    unfold modelTypes at h
    split at h
    · simp at h
    · rename_i hignored
      rw [modelTypesAll_eq_flatMap, List.mem_append, List.mem_append, Option.mem_toList] at h
      rcases h with (h | h) | h
      · split at h
        · rename_i hmodel
          rw [List.mem_singleton.1 h]
          exact isCandidate_iff.2 ⟨hmodel, by simpa using hignored⟩
        · simp at h
      · obtain ⟨t, ht, hid⟩ := List.mem_flatMap.1 h
        exact ih t ht hid
      · exact isCandidate_of_modelBase h
  | external type args ih =>
    rw [modelTypes, modelTypesAll_eq_flatMap] at h
    obtain ⟨t, ht, hid⟩ := List.mem_flatMap.1 h
    exact ih t ht hid
  | array t ih =>
    rw [modelTypes] at h
    exact ih h

/-! ## Start -/

theorem mem_seeds {operations : List Operation} {id : TypeId} :
    id ∈ r.seeds operations ↔ r.IsSeed operations id := by
  have hsignature : ∀ o : Operation,
      (o.returns.elim [] r.modelTypes ++ o.parameters.flatMap fun p => r.modelTypes p.type)
        = o.types.flatMap r.modelTypes := by
    intro o
    cases h : o.returns <;> simp [Operation.types, h, List.flatMap_map]
  simp only [seeds, ModelSet.mem_ofList, List.mem_flatMap, hsignature, IsSeed]

theorem isCandidate_of_isSeed {operations : List Operation} {id : TypeId}
    (h : r.IsSeed operations id) : r.isCandidate id = true := by
  obtain ⟨_, _, _, _, hid⟩ := h
  exact isCandidate_of_mem_modelTypes hid

theorem mem_derivedTypes {id seed : TypeId} :
    id ∈ r.derivedTypes seed ↔
      r.Descends id seed ∧ r.moduleOf id = r.moduleOf seed ∧ r.isCandidate id = true := by
  simp only [derivedTypes, List.mem_filter, Bool.and_eq_true, decide_eq_true_eq, derives_iff]
  constructor
  · rintro ⟨_, ⟨⟨_, hmodule⟩, hcandidate⟩, hderives⟩
    exact ⟨hderives, hmodule, hcandidate⟩
  · rintro ⟨hderives, hmodule, hcandidate⟩
    exact ⟨mem_ids_of_isCandidate hcandidate, ⟨⟨hderives.2, hmodule⟩, hcandidate⟩, hderives⟩

theorem mem_derivedClosure {s : ModelSet} {id : TypeId} :
    id ∈ r.derivedClosure s ↔ (∃ seed ∈ s, id ∈ r.derivedTypes seed) ∨ id ∈ s := by
  rw [derivedClosure, ModelSet.mem_insertAll, List.mem_flatMap]
  rfl

theorem isCandidate_of_mem_start {operations : List Operation} {id : TypeId}
    (h : id ∈ r.derivedClosure (r.seeds operations)) : r.isCandidate id = true := by
  rcases mem_derivedClosure.1 h with ⟨seed, _, hid⟩ | h
  · exact (mem_derivedTypes.1 hid).2.2
  · exact isCandidate_of_isSeed (mem_seeds.1 h)

/-! ## Walk -/

/-- The filter of the walk drops nothing: all that members mention are candidates. -/
theorem mem_neededTypes {id m : TypeId} :
    m ∈ r.neededTypes id ↔
      (∃ p ∈ r.allProperties id, m ∈ r.modelTypes p.type) ∨ r.modelBase? id = some m := by
  rw [neededTypes, List.mem_filter, List.mem_append, List.mem_flatMap, Option.mem_toList]
  refine and_iff_left_of_imp fun h => ?_
  rcases h with ⟨p, _, hm⟩ | h
  · exact isCandidate_of_mem_modelTypes hm
  · exact isCandidate_of_modelBase h

theorem isCandidate_of_mem_neededTypes {id m : TypeId} (h : m ∈ r.neededTypes id) :
    r.isCandidate m = true :=
  (List.mem_filter.1 h).2

theorem mem_ids_of_mem_neededTypes : ∀ id ∈ r.ids, ∀ m ∈ r.neededTypes id, m ∈ r.ids :=
  fun _ _ _ hm => mem_ids_of_isCandidate (isCandidate_of_mem_neededTypes hm)

/-- The number of steps never cuts the walk short, since all candidates are declared types. -/
theorem neededClosure_closed {s : ModelSet} (hs : ∀ id ∈ s, r.isCandidate id = true) :
    ClosedUnder r.neededTypes {id | id ∈ r.neededClosure s} := by
  refine reach_closed mem_ids_of_mem_neededTypes ?_
  rw [← r.length_ids]
  exact .start (fun id hid => mem_ids_of_isCandidate (hs id hid)) s.nodup (.refl _)

theorem mem_neededClosure_of_mem {s : ModelSet} {id : TypeId} (h : id ∈ s) :
    id ∈ r.neededClosure s :=
  mem_reach_of_mem h

theorem mem_of_mem_neededClosure {s : ModelSet} {t : Set TypeId}
    (ht : ClosedUnder r.neededTypes t) (hs : ∀ id ∈ s, id ∈ t) {id : TypeId}
    (h : id ∈ r.neededClosure s) : id ∈ t :=
  mem_of_mem_reach ht hs hs h

/-- It does not matter in which order the walk takes its start from the stack. -/
theorem mem_neededClosure_sorted {s : ModelSet} (hs : ∀ id ∈ s, r.isCandidate id = true)
    {id : TypeId} : id ∈ r.neededClosure s ↔
      id ∈ reach r.neededTypes r.types.length s.toList (s.sorted r).reverse := by
  have hids : s.toList ⊆ r.ids := fun id hid => mem_ids_of_isCandidate (hs id hid)
  have hstack : (s.sorted r).reverse.Perm s.toList :=
    (List.reverse_perm _).trans (Text.sortByTexts_perm _ _)
  have hleast := fun {stack : List TypeId} (h : stack.Perm s.toList) =>
    mem_reach_iff mem_ids_of_mem_neededTypes hids s.nodup h (a := id)
  rw [← r.length_ids, hleast hstack, ← hleast (.refl _), r.length_ids]
  rfl

/-! ## Discovery -/

theorem discover_closed (r : Registry) (operations : List Operation) :
    r.IsClosed operations {id | id ∈ r.discover operations} := by
  have hstart : ∀ id ∈ r.derivedClosure (r.seeds operations), id ∈ r.discover operations :=
    fun id h => mem_neededClosure_of_mem h
  have hwalk := neededClosure_closed (s := r.derivedClosure (r.seeds operations))
    fun id h => isCandidate_of_mem_start h
  refine ⟨?_, ?_, ?_, ?_⟩
  · intro id h
    exact hstart id (mem_derivedClosure.2 (.inr (mem_seeds.2 h)))
  · intro id seed hseed hderives hmodule hcandidate
    refine hstart id (mem_derivedClosure.2 (.inl ⟨seed, mem_seeds.2 hseed, ?_⟩))
    exact mem_derivedTypes.2 ⟨hderives, hmodule, hcandidate⟩
  · intro id hid base hbase
    exact hwalk id hid base (mem_neededTypes.2 (.inr hbase))
  · intro id hid p hp m hm
    exact hwalk id hid m (mem_neededTypes.2 (.inl ⟨p, hp, hm⟩))

theorem mem_of_mem_discover {operations : List Operation} {s : Set TypeId}
    (hs : r.IsClosed operations s) {id : TypeId} (h : id ∈ r.discover operations) : id ∈ s := by
  refine mem_of_mem_neededClosure ?_ ?_ h
  · intro a ha m hm
    rcases mem_neededTypes.1 hm with ⟨p, hp, hm⟩ | hm
    · exact hs.property a ha p hp m hm
    · exact hs.base a ha m hm
  · intro a ha
    rcases mem_derivedClosure.1 ha with ⟨seed, hseed, ha⟩ | ha
    · obtain ⟨hderives, hmodule, hcandidate⟩ := mem_derivedTypes.1 ha
      exact hs.derived a seed (mem_seeds.1 hseed) hderives hmodule hcandidate
    · exact hs.seed a (mem_seeds.1 ha)

/-- The candidates are closed, so that nothing else is found. -/
theorem isCandidate_of_mem_discover {operations : List Operation} {id : TypeId}
    (h : id ∈ r.discover operations) : r.isCandidate id = true := by
  refine mem_of_mem_discover (s := {a | r.isCandidate a = true}) ?_ h
  refine ⟨fun a ha => isCandidate_of_isSeed ha, fun _ _ _ _ _ ha => ha, ?_, ?_⟩
  · intro _ _ base hbase
    exact isCandidate_of_modelBase hbase
  · intro _ _ _ _ m hm
    exact isCandidate_of_mem_modelTypes hm

theorem isClosed_congr {operations operations' : List Operation}
    (h : ∀ o, o ∈ operations ↔ o ∈ operations') {s : Set TypeId} (hs : r.IsClosed operations s) :
    r.IsClosed operations' s := by
  have hseed : ∀ id, r.IsSeed operations' id → r.IsSeed operations id := by
    rintro id ⟨o, ho, t, ht, hid⟩
    exact ⟨o, (h o).2 ho, t, ht, hid⟩
  exact ⟨fun id hid => hs.seed id (hseed id hid),
    fun id seed hs' => hs.derived id seed (hseed seed hs'), hs.base, hs.property⟩

theorem mem_discover_congr {operations operations' : List Operation}
    (h : ∀ o, o ∈ operations ↔ o ∈ operations') (id : TypeId) :
    id ∈ r.discover operations ↔ id ∈ r.discover operations' :=
  ⟨mem_of_mem_discover (isClosed_congr (fun o => (h o).symm) (discover_closed r operations')),
    mem_of_mem_discover (isClosed_congr h (discover_closed r operations))⟩

/-- For every registry and all operations, discovery ends with exactly the least closed set: nothing
that generated code needs is missed, and nothing else is found. The result depends on the operations
as a set, also in the order in which it is listed, and holds models and enumerations only, none of
them ignored. -/
theorem discover_isLeast (r : Registry) (operations : List Operation) :
    IsLeast {s | r.IsClosed operations s} {id | id ∈ r.discover operations} ∧
      (∀ operations' : List Operation, (∀ o, o ∈ operations ↔ o ∈ operations') →
        (∀ id, id ∈ r.discover operations ↔ id ∈ r.discover operations') ∧
          (r.discover operations).sorted r = (r.discover operations').sorted r) ∧
      ∀ id ∈ r.discover operations, ∃ d, r.get? id = some d ∧ d.hasMarker .ignore = false ∧
        (d.kind = .enumType ∨ d.kind = .classType ∧ isLibraryNamespace d.space = false) := by
  refine ⟨⟨discover_closed r operations, ?_⟩, ?_, ?_⟩
  · intro s hs id hid
    exact mem_of_mem_discover hs hid
  · intro operations' h
    refine ⟨mem_discover_congr h, ModelSet.sorted_congr ?_ (mem_discover_congr h)⟩
    intro id hid
    exact mem_ids_of_isCandidate (isCandidate_of_mem_discover hid)
  · intro id hid
    exact exists_of_isCandidate (isCandidate_of_mem_discover hid)

end Registry

end ApiClient
