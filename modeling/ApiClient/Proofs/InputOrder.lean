import ApiClient.Loading.Directory
import ApiClient.Proofs.Queueing
import ApiClient.Proofs.Renaming.Generation
import ApiClient.Proofs.Renaming.Loading

/-!
# The order of the input does not matter

Documents are queued in the order in which they come, and a type's identity is its place among all
that are declared. Generated code depends on neither: documents in another order, with their types
in another order, give the same code.

Results:
* `Loader.ofDocuments`: the loader of documents; those with a fault are left out, as they are when a
  directory is loaded.
* `Loader.ofDocuments_types_perm`: the types to load are those of the documents without fault.
* `Scan.generate_reordered`: reordered documents generate the same code, or fail in the same way.
-/

namespace ApiClient

namespace Loader

/-! ## Queueing -/

/-- Queues a document that comes from somewhere, or notes why it is left out. -/
def offer (l : Loader) (origin fallback : String) (d : ModuleDocument) : Loader :=
  match l.outcome (fallback, d) with
  | (.ok (), l) => l
  | (.error e, l) => { l with skipped := l.skipped ++ [⟨origin, e.message⟩] }

/-- A file whose document can be read is queued like the document. -/
theorem addFile_of_readDocument {disk : Disk} {path : String} {d : ModuleDocument}
    (h : readDocument disk path = .ok d) (l : Loader) :
    l.addFile disk path = l.offer path (fallbackName path) d := by
  have hqueue : (tryAddFile disk path).run.run l = l.outcome (fallbackName path, d) := by
    rw [tryAddFile, h]
    rfl
  rw [addFile, hqueue]
  rfl

/-- Queues documents in order, each with the name of its module if it gives none. -/
def ofDocuments (docs : List (String × ModuleDocument)) : Loader :=
  docs.foldl (fun l p => l.offer p.1 p.1 p.2) .empty

theorem offer_pending (l : Loader) (origin fallback : String) (d : ModuleDocument) :
    (l.offer origin fallback d).pending =
      if moduleName fallback d ∉ l.pending.map (·.1) ∧ typesFault [] d.types = none then
        l.pending ++ [(moduleName fallback d, d)]
      else l.pending := by
  by_cases h : l.Accepts (fallback, d)
  · rw [if_pos (show moduleName fallback d ∉ _ ∧ _ from h), offer, outcome_of_accepts h]
    rfl
  · obtain ⟨e, he⟩ := outcome_of_not_accepts h
    rw [if_neg (show ¬ (moduleName fallback d ∉ _ ∧ _) from h), offer, he]

theorem foldl_offer_pending (l : Loader) (docs : List (String × ModuleDocument))
    (h : (l.pending.map (·.1) ++ docs.map moduleOf).Nodup) :
    (docs.foldl (fun l p => l.offer p.1 p.1 p.2) l).pending =
      l.pending ++ (docs.filter fun p => (typesFault [] p.2.types).isNone).map
        fun p => (moduleOf p, p.2) := by
  induction docs generalizing l with
  | nil => simp
  | cons p docs ih =>
    have hpending := offer_pending l p.1 p.1 p.2
    have hfresh : moduleName p.1 p.2 ∉ l.pending.map (·.1) := by
      intro hmem
      exact (List.nodup_append.1 h).2.2 _ hmem _ (.head _) rfl
    rw [List.foldl_cons, List.filter_cons]
    cases hfault : typesFault [] p.2.types with
    | none =>
      rw [if_pos ⟨hfresh, hfault⟩] at hpending
      rw [ih, hpending]
      · simp [moduleOf]
      · rw [hpending]
        simpa [moduleOf] using h
    | some fault =>
      rw [if_neg (by simp [hfault])] at hpending
      rw [ih, hpending]
      · simp
      · rw [hpending]
        exact h.sublist (List.Sublist.append_left (List.sublist_cons_self _ _) _)

/-! ## Types of documents -/

theorem typesFault_perm {ts ts' : List TypeDocument} (h : ts.Perm ts') :
    (typesFault [] ts).isNone = (typesFault [] ts').isNone := by
  rw [Bool.eq_iff_iff, Option.isNone_iff_eq_none, Option.isNone_iff_eq_none,
    typesFault_eq_none_iff, typesFault_eq_none_iff, (h.map _).nodup_iff]
  simp only [h.mem_iff]

/-- The types that loading a document declares, with their module. -/
def contributed (p : String × ModuleDocument) : List (String × TypeDocument) :=
  if (typesFault [] p.2.types).isNone then p.2.types.map (moduleOf p, ·) else []

theorem ofDocuments_types_perm {docs : List (String × ModuleDocument)}
    (h : (docs.map moduleOf).Nodup) : (ofDocuments docs).types.Perm (docs.flatMap contributed) := by
  have hpending := foldl_offer_pending .empty docs (by simpa [empty, ofPending] using h)
  refine ((Text.sortByText_perm _ _).flatMap_right _).trans (.of_eq ?_)
  have hloaded : (ofDocuments docs).pending.flatMap (fun q => q.2.types.map (q.1, ·)) =
      (docs.filter fun p => (typesFault [] p.2.types).isNone).flatMap fun p =>
        p.2.types.map (moduleOf p, ·) := by
    rw [ofDocuments, hpending, empty, ofPending, List.nil_append, List.flatMap_map]
  refine hloaded.trans ?_
  clear hpending hloaded h
  induction docs with
  | nil => rfl
  | cons p docs ih =>
    rw [List.filter_cons, List.flatMap_cons, contributed, ← ih]
    split <;> simp

theorem contributed_keys_nodup {docs : List (String × ModuleDocument)}
    (hmodules : (docs.map moduleOf).Nodup)
    (htypes : ∀ p ∈ docs, (p.2.types.map fun t => qualify t.space t.name).Nodup) :
    ((docs.flatMap contributed).map key).Nodup := by
  have hkeys : ∀ p, (contributed p).map key =
      if (typesFault [] p.2.types).isNone then
        (p.2.types.map fun t => qualify t.space t.name).map (·, moduleOf p) else [] := by
    intro p
    unfold contributed
    split
    · rw [List.map_map, List.map_map]
      rfl
    · rfl
  rw [List.map_flatMap, List.nodup_flatMap]
  constructor
  · intro p hp
    rw [hkeys]
    split
    · exact (htypes p hp).map fun _ _ h => (Prod.mk.inj h).1
    · exact List.nodup_nil
  · refine (List.pairwise_map.1 hmodules).imp fun {p q} hne => ?_
    intro k hk hk'
    have howner : ∀ p, k ∈ (contributed p).map key → k.2 = moduleOf p := by
      intro p hk
      rw [hkeys] at hk
      split at hk
      · obtain ⟨_, _, rfl⟩ := List.mem_map.1 hk
        rfl
      · simp at hk
    exact hne ((howner p hk).symm.trans (howner q hk'))

end Loader

/-! ## Reordering -/

/-- The second document is the first one with its types in another order. -/
def Rearranged (p p' : String × ModuleDocument) : Prop :=
  p.1 = p'.1 ∧ p.2.module = p'.2.module ∧ p.2.types.Perm p'.2.types

/-- The documents come in another order, and so do the types of each. -/
def Reordered (docs docs' : List (String × ModuleDocument)) : Prop :=
  ∃ rearranged, List.Forall₂ Rearranged docs rearranged ∧ rearranged.Perm docs'

theorem Rearranged.moduleOf_eq {p p' : String × ModuleDocument} (h : Rearranged p p') :
    Loader.moduleOf p = Loader.moduleOf p' := by
  unfold Loader.moduleOf Loader.moduleName
  rw [h.1, h.2.1]

theorem Rearranged.contributed_perm {p p' : String × ModuleDocument} (h : Rearranged p p') :
    (Loader.contributed p).Perm (Loader.contributed p') := by
  rw [Loader.contributed, Loader.contributed, Loader.typesFault_perm h.2.2, h.moduleOf_eq]
  split
  · exact h.2.2.map _
  · exact .refl _

theorem Reordered.modules_perm {docs docs' : List (String × ModuleDocument)}
    (h : Reordered docs docs') : (docs.map Loader.moduleOf).Perm (docs'.map Loader.moduleOf) := by
  obtain ⟨rearranged, hforall, hperm⟩ := h
  refine .trans (.of_eq ?_) (hperm.map _)
  clear hperm
  induction hforall with
  | nil => rfl
  | cons hp _ ih => rw [List.map_cons, List.map_cons, hp.moduleOf_eq, ih]

theorem Reordered.contributed_perm {docs docs' : List (String × ModuleDocument)}
    (h : Reordered docs docs') :
    (docs.flatMap Loader.contributed).Perm (docs'.flatMap Loader.contributed) := by
  obtain ⟨rearranged, hforall, hperm⟩ := h
  refine .trans ?_ (hperm.flatMap_right _)
  clear hperm
  induction hforall with
  | nil => exact .refl _
  | cons hp _ ih =>
    rw [List.flatMap_cons, List.flatMap_cons]
    exact hp.contributed_perm.append ih

/-- Documents of distinct modules in another order, each with its types in another order, generate
the same code for all options, or fail in the same way. -/
theorem Scan.generate_reordered {docs docs' : List (String × ModuleDocument)}
    (h : Reordered docs docs') (hmodules : (docs.map Loader.moduleOf).Nodup)
    (htypes : ∀ p ∈ docs, (p.2.types.map fun t => qualify t.space t.name).Nodup) (o : Options) :
    (ofModules o.controllerBases (Loader.ofDocuments docs').load).generate o =
      (ofModules o.controllerBases (Loader.ofDocuments docs).load).generate o := by
  have hmodules' : (docs'.map Loader.moduleOf).Nodup := h.modules_perm.nodup_iff.1 hmodules
  have htypes_perm : (Loader.ofDocuments docs).types.Perm (Loader.ofDocuments docs').types :=
    (Loader.ofDocuments_types_perm hmodules).trans
      (h.contributed_perm.trans (Loader.ofDocuments_types_perm hmodules').symm)
  have hkeys : ((Loader.ofDocuments docs).types.map Loader.key).Nodup :=
    ((Loader.ofDocuments_types_perm hmodules).map _).nodup_iff.2
      (Loader.contributed_keys_nodup hmodules htypes)
  obtain ⟨f, hf⟩ := Loader.exists_renames htypes_perm hkeys
  exact (ofModules_renames hf o.controllerBases).generate o

/-- A box and a crate, which is a box. -/
def depot : List TypeDocument :=
  let blank := TypeDocument.shape.blank
  [{ blank with name := "Box", space := "Depot" },
    { blank with name := "Crate", space := "Depot", base := some (.named "Depot.Box" []) }]

/-- An order of crates, and the controller that gives it. -/
def shop : List TypeDocument :=
  let blank := TypeDocument.shape.blank
  [{ blank with
      name := "Order", space := "Shop"
      properties := [⟨"Crates", .array (.named "Depot.Crate" []), [], none⟩] },
    { blank with
      name := "OrderController", space := "Shop", base := some (.named "ApiController" [])
      methods := [⟨"GetOrder", [], [], some (.named "Shop.Order" [])⟩] }]

/-- Both modules the other way round, each with its types the other way round. -/
theorem Scan.generate_reordered_shop_depot :
    let docs := [("Depot", ⟨none, depot⟩), ("Shop", ⟨none, shop⟩)]
    let docs' := [("Shop", ⟨none, shop.reverse⟩), ("Depot", ⟨none, depot.reverse⟩)]
    let o := { Options.initial "in" "out" with apiPath := some "api", generateSchema := true }
    Reordered docs docs' ∧ (docs.map Loader.moduleOf).Nodup ∧
      (∀ p ∈ docs, (p.2.types.map fun t => qualify t.space t.name).Nodup) ∧
      (ofModules o.controllerBases (Loader.ofDocuments docs').load).generate o =
        (ofModules o.controllerBases (Loader.ofDocuments docs).load).generate o := by
  intro docs docs' o
  have hreordered : Reordered docs docs' := by
    refine ⟨[("Depot", ⟨none, depot.reverse⟩), ("Shop", ⟨none, shop.reverse⟩)], ?_, .swap _ _ _⟩
    exact .cons ⟨rfl, rfl, depot.reverse_perm.symm⟩ (.cons ⟨rfl, rfl, shop.reverse_perm.symm⟩ .nil)
  have hmodules : (docs.map Loader.moduleOf).Nodup := by decide
  have htypes : ∀ p ∈ docs, (p.2.types.map fun t => qualify t.space t.name).Nodup := by
    decide
  exact ⟨hreordered, hmodules, htypes, generate_reordered hreordered hmodules htypes o⟩

end ApiClient
