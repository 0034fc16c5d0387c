import ApiClient.Proofs.Loading
import ApiClient.Proofs.Queueing

/-!
# What accepted documents are loaded to

Loading goes through the modules in the order of their names, and no two accepted documents are of
one module. So it does not matter in which order the documents came. Members are resolved one type
after the other, all of them as if the registry was finished.

* `LoadedFrom`: the loaded modules are those of the documents, and each type is described by the
  document of its module, with its expressions resolved in the loaded registry.

Results:
* `load_eq_of_perm`: queued documents in another order are loaded to the same.
* `mem_types_addEach`: the types to load are those of the accepted documents.
* `load_of_perm`: accepted documents are accepted in any order, and loaded to the same registry.
-/

namespace ApiClient.Loader

/-- What is loaded comes from the documents: their modules in order, and types that they describe,
with all expressions resolved in the loaded registry. -/
structure LoadedFrom (docs : List (String × ModuleDocument)) (m : LoadedModules) : Prop where
  modules_sorted : m.modules.Pairwise (· < ·)
  mem_modules : ∀ name, name ∈ m.modules ↔ ∃ p ∈ docs, moduleOf p = name
  types : ∀ d ∈ m.registry.types, ∃ p ∈ docs, ∃ t ∈ p.2.types,
    Describes m.registry (moduleOf p) t d

/-! ## Queued documents -/

theorem sorted_eq_of_perm {l l' : Loader} (h : l.pending.Perm l'.pending)
    (hmodules : (l.pending.map (·.1)).Nodup) : l.sorted = l'.sorted :=
  Text.sortByText_eq_of_perm h fun _ ha _ hb hab => List.inj_on_of_nodup_map hmodules ha hb hab

theorem load_eq_of_perm {l l' : Loader} (h : l.pending.Perm l'.pending)
    (hmodules : (l.pending.map (·.1)).Nodup) (hskipped : l.skipped = l'.skipped) :
    l.load = l'.load := by
  have hsorted := sorted_eq_of_perm h hmodules
  have htypes : l.types = l'.types := by rw [types, types, hsorted]
  rw [load, load, htypes, hsorted, hskipped]

/-! ## Accepted documents -/

variable {calls docs : List (String × ModuleDocument)}

theorem mem_sorted_addEach {q : String × ModuleDocument} :
    q ∈ (addEach .empty calls).sorted ↔ ∃ p ∈ accepted .empty calls, queued p = q := by
  rw [sorted, (Text.sortByText_perm _ _).mem_iff, pending_addEach_empty, List.mem_map]

theorem mem_types_addEach {q : String × TypeDocument} : q ∈ (addEach .empty calls).types ↔
    ∃ p ∈ accepted .empty calls, ∃ t ∈ p.2.types, q = (moduleOf p, t) := by
  rw [types, List.mem_flatMap]
  constructor
  · rintro ⟨q', hq', hq⟩
    obtain ⟨p, hp, rfl⟩ := mem_sorted_addEach.1 hq'
    obtain ⟨t, ht, rfl⟩ := List.mem_map.1 hq
    exact ⟨p, hp, t, ht, rfl⟩
  · rintro ⟨p, hp, t, ht, rfl⟩
    exact ⟨queued p, mem_sorted_addEach.2 ⟨p, hp, rfl⟩, List.mem_map_of_mem ht⟩

theorem loadedFrom_accepted (calls : List (String × ModuleDocument)) :
    LoadedFrom (accepted .empty calls) (addEach .empty calls).load where
  modules_sorted := List.pairwise_map.2 (Text.sortByText_pairwise_lt (addEach_empty_nodup calls))
  mem_modules name := by
    rw [load, List.mem_map]
    constructor
    · rintro ⟨q, hq, rfl⟩
      obtain ⟨p, hp, rfl⟩ := mem_sorted_addEach.1 hq
      exact ⟨p, hp, rfl⟩
    · rintro ⟨p, hp, rfl⟩
      exact ⟨queued p, mem_sorted_addEach.2 ⟨p, hp, rfl⟩, rfl⟩
  types d hd := by
    obtain ⟨q, hfirst, rfl⟩ := mem_load_types.1 hd
    obtain ⟨p, hp, t, ht, rfl⟩ := mem_types_addEach.1 hfirst.mem
    exact ⟨p, hp, t, ht, describes_iff.2 rfl⟩

/-- Documents that are accepted are accepted in any order, and it is the same that they are loaded
to, identities included. -/
theorem load_of_perm (h : docs.Perm (accepted .empty calls)) :
    accepted .empty docs = docs ∧ (addEach .empty docs).load = (addEach .empty calls).load ∧
      LoadedFrom docs (addEach .empty docs).load := by
  have haccepted := accepted_of_perm h
  have hpending : (addEach .empty docs).pending.Perm (addEach .empty calls).pending := by
    rw [pending_addEach_empty, pending_addEach_empty, haccepted]
    exact h.map queued
  have hload : (addEach .empty docs).load = (addEach .empty calls).load := by
    refine load_eq_of_perm hpending (addEach_empty_nodup docs) ?_
    rw [skipped_addEach, skipped_addEach]
  have hloaded := loadedFrom_accepted docs
  rw [haccepted] at hloaded
  exact ⟨haccepted, hload, hloaded⟩

/-- Labels of two modules, and a box of one of them that refers to a label declared after it. -/
def labels : List (String × ModuleDocument) :=
  let blank := TypeDocument.shape.blank
  let box : TypeDocument :=
    { blank with
      name := "Box"
      properties := [⟨"Labels", .array (.named "Label" []), [], none⟩]
      methods := [⟨"Wait", [], [], some (.named "Task" [])⟩] }
  [("Shop", ⟨none, [box, { blank with name := "Label" }]⟩),
    ("Depot", ⟨none, [{ blank with name := "Label" }]⟩)]

/-- The modules the other way round, without a document that was refused. -/
theorem load_of_perm_labels :
    let calls := labels ++ [("Spare", ⟨some "Shop", []⟩)]
    let docs := labels.reverse
    docs.Perm (accepted .empty calls) ∧
      accepted .empty docs = docs ∧ (addEach .empty docs).load = (addEach .empty calls).load ∧
        LoadedFrom docs (addEach .empty docs).load := by
  intro calls docs
  have haccepted : accepted .empty calls = labels := rfl
  have hperm : docs.Perm (accepted .empty calls) := haccepted ▸ labels.reverse_perm
  exact ⟨hperm, load_of_perm hperm⟩

end ApiClient.Loader
