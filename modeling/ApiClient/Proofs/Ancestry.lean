import ApiClient.Proofs.Inheritance
import ApiClient.Proofs.Loading

/-!
# Ancestry

The ancestors of a type, told by base steps alone: which types they are, in what order, and what
follows for the question whether a type derives from another one.

Results:
* `transGen_isBase_iff`: a type is reached if some number of base steps leads to it.
* `getElem?_ancestors`: the ancestors come in the order of their distances.
* `length_ancestors_le`: there are no more of them than declared types.
* `basesDeclared_load`: in a loaded registry all bases are declared.
* `isLineage_ancestors`: all of it, with the order that derivation is if there are no cycles.
-/

namespace ApiClient.Registry

variable {r : Registry} {seen as : List TypeId} {id a b : TypeId} {i m n : ℕ}

/-! ## Specification -/

/-- The type that so many base steps lead to. -/
def baseAfter (r : Registry) : ℕ → TypeId → Option TypeId
  | 0, id => some id
  | n + 1, id => (r.baseId? id).bind (r.baseAfter n)

/-- So many base steps lead to the other type, and no fewer do. -/
def IsAbove (r : Registry) (n : ℕ) (id a : TypeId) : Prop :=
  r.baseAfter n id = some a ∧ ∀ m < n, r.baseAfter m id ≠ some a

/-- No type is reached from itself. -/
def IsAcyclic (r : Registry) : Prop :=
  ∀ a, ¬ Relation.TransGen r.IsBase a a

/-- Every base is a type of the registry. -/
def BasesDeclared (r : Registry) : Prop :=
  ∀ sub base, r.IsBase sub base → base ∈ r.ids

/-- The list is the base chain of the type. -/
structure IsLineage (r : Registry) (id : TypeId) (chain : List TypeId) : Prop where
  /-- Going up from the type ends, with this chain and no other. -/
  climbs : ∀ as, r.Climbs [id] id as ↔ as = chain
  length_le : chain.length ≤ r.types.length
  nodup : chain.Nodup
  /-- The nearest types come first, and each is at its least distance. -/
  nearest : ∀ i a, chain[i]? = some a ↔ r.IsAbove (i + 1) id a
  reached : ∀ a, a ∈ chain ↔ a ≠ id ∧ Relation.TransGen r.IsBase id a
  declared : r.BasesDeclared → ∀ a ∈ chain, a ∈ r.ids

/-! ## Steps -/

theorem baseAfter_succ_eq_some :
    r.baseAfter (n + 1) a = some b ↔ ∃ base, r.IsBase a base ∧ r.baseAfter n base = some b :=
  Option.bind_eq_some_iff

theorem transGen_isBase_iff :
    Relation.TransGen r.IsBase a b ↔ ∃ n, r.baseAfter (n + 1) a = some b := by
  constructor
  · intro h
    induction h using Relation.TransGen.head_induction_on with
    | single hbase => exact ⟨0, baseAfter_succ_eq_some.2 ⟨b, hbase, rfl⟩⟩
    | head hbase _ ih =>
      obtain ⟨n, hn⟩ := ih
      exact ⟨n + 1, baseAfter_succ_eq_some.2 ⟨_, hbase, hn⟩⟩
  · rintro ⟨n, hn⟩
    induction n generalizing a with
    | zero =>
      obtain ⟨base, hbase, hb⟩ := baseAfter_succ_eq_some.1 hn
      obtain rfl := Option.some.inj hb
      exact .single hbase
    | succ n ih =>
      obtain ⟨base, hbase, hb⟩ := baseAfter_succ_eq_some.1 hn
      exact .head hbase (ih hb)

theorem IsAbove.unique (h : r.IsAbove m id a) (h' : r.IsAbove n id a) : m = n := by
  have hle : n ≤ m := Nat.not_lt.1 fun hlt => h'.2 m hlt h.1
  have hge : m ≤ n := Nat.not_lt.1 fun hlt => h.2 n hlt h'.1
  omega

/-! ## Chains -/

theorem Climbs.nodup (h : r.Climbs seen a as) : as.Nodup := by
  induction h with
  | top => exact List.nodup_nil
  | again => exact List.nodup_nil
  | up _ _ hclimbs ih =>
    exact List.nodup_cons.2 ⟨fun hmem => (hclimbs.transGen_of_mem hmem).2 (.head _), ih⟩

/-- Each type on the way adds to those that were seen. -/
theorem Climbs.length_le (h : r.Climbs seen a as) (hn : seen.Nodup) (hids : seen ⊆ a :: r.ids) :
    as.length + seen.length ≤ r.types.length + 1 := by
  induction h with
  | top => simpa using length_le_of_seen hn hids
  | again => simpa using length_le_of_seen hn hids
  | up hbase hnew _ ih =>
    have := ih (List.nodup_cons.2 ⟨hnew, hn⟩) (seen_subset_of_isBase hbase hids)
    rw [List.length_cons] at this ⊢
    omega

theorem Climbs.baseAfter_of_getElem? (h : r.Climbs seen a as) (hi : as[i]? = some b) :
    r.baseAfter (i + 1) a = some b := by
  induction h generalizing i with
  | top => simp at hi
  | again => simp at hi
  | up hbase _ _ ih =>
    refine baseAfter_succ_eq_some.2 ⟨_, hbase, ?_⟩
    cases i with
    | zero => exact hi
    | succ i => exact ih hi

/-! ## Ancestors -/

theorem length_ancestors_le (r : Registry) (id : TypeId) :
    (r.ancestors id).length ≤ r.types.length := by
  have := (climbs_ancestors r id).length_le (List.nodup_singleton id) (by simp)
  rw [List.length_singleton] at this
  omega

theorem isAbove_of_getElem?_ancestors (hi : (r.ancestors id)[i]? = some a) :
    r.IsAbove (i + 1) id a := by
  have hclimbs := climbs_ancestors r id
  refine ⟨hclimbs.baseAfter_of_getElem? hi, fun m hm he => ?_⟩
  cases m with
  | zero => exact (mem_ancestors.1 (List.mem_of_getElem? hi)).2 (Option.some.inj he)
  | succ m =>
    -- Fewer steps lead to an earlier ancestor, and no ancestor comes twice.
    obtain ⟨hlt, _⟩ := List.getElem?_eq_some_iff.1 hi
    have hmlt : m < (r.ancestors id).length := by omega
    have hc := hclimbs.baseAfter_of_getElem? (List.getElem?_eq_getElem hmlt)
    have hsame : (r.ancestors id)[m]? = (r.ancestors id)[i]? := by
      rw [hi, List.getElem?_eq_getElem hmlt, ← hc, he]
    have := (List.getElem?_inj hmlt hclimbs.nodup).1 hsame
    omega

theorem getElem?_ancestors : (r.ancestors id)[i]? = some a ↔ r.IsAbove (i + 1) id a := by
  constructor
  · exact isAbove_of_getElem?_ancestors
  · intro h
    have hne : id ≠ a := fun he => h.2 0 (Nat.succ_pos i) (congrArg some he)
    have hmem : a ∈ r.ancestors id := mem_ancestors.2 ⟨transGen_isBase_iff.2 ⟨i, h.1⟩, hne⟩
    obtain ⟨k, hk⟩ := List.mem_iff_getElem?.1 hmem
    have := (isAbove_of_getElem?_ancestors hk).unique h
    obtain rfl : k = i := by omega
    exact hk

theorem mem_ids_of_mem_ancestors (hr : r.BasesDeclared) (ha : a ∈ r.ancestors id) : a ∈ r.ids := by
  obtain ⟨sub, _, hbase⟩ := Relation.TransGen.tail'_iff.1 (mem_ancestors.1 ha).1
  exact hr sub a hbase

/-- A base is what a name was resolved to. -/
theorem basesDeclared_load (l : Loader) : l.load.registry.BasesDeclared := by
  intro sub base h
  unfold IsBase baseId? at h
  split at h
  · rename_i d hd
    obtain ⟨t, ht, hbase⟩ := Option.bind_eq_some_iff.1 h
    obtain ⟨p, _, rfl⟩ := Loader.mem_load_types.1 (mem_types_iff.2 ⟨sub, hd⟩)
    obtain ⟨e, _, rfl⟩ := Option.map_eq_some_iff.1 ht
    cases e with
    | array e => simp [resolve_array, TypeRef.declaredId?] at hbase
    | named name args =>
      rw [resolve_named] at hbase
      split at hbase
      · rename_i id hlookup
        obtain rfl := Option.some.inj hbase
        obtain ⟨d, hd, _⟩ := lookup_eq_some_iff.1 hlookup
        exact mem_ids.2 ⟨d, hd⟩
      · simp [TypeRef.declaredId?] at hbase
  · simp at h

/-! ## Derivation -/

theorem isAcyclic_of_lt (h : ∀ a b, r.IsBase a b → b.index < a.index) : r.IsAcyclic := by
  intro a hcycle
  have hlt : ∀ b, Relation.TransGen r.IsBase a b → b.index < a.index := by
    intro b hb
    induction hb with
    | single hbase => exact h _ _ hbase
    | tail _ hbase ih => exact Nat.lt_trans (h _ _ hbase) ih
  exact Nat.lt_irrefl _ (hlt a hcycle)

/-- Without cycles a type that derives from a second one derives from what that derives from. -/
theorem isStrictOrder_derives (h : r.IsAcyclic) :
    IsStrictOrder TypeId fun a b => r.derives a b = true where
  irrefl a ha := (derives_iff.1 ha).2 rfl
  trans a b c hab hbc := by
    have hab := derives_iff.1 hab
    have hbc := derives_iff.1 hbc
    refine derives_iff.2 (hab.trans hbc ?_)
    rintro rfl
    exact h a (hab.1.trans hbc.1)

/-- For every registry, whatever its bases are: the ancestors of a type are found in finitely many
steps and are its base chain, so a type derives from all other types that it reaches. Without cycles
this is a strict order. However a registry is loaded, all bases in it are declared. -/
theorem isLineage_ancestors (r : Registry) :
    (∀ id, r.IsLineage id (r.ancestors id)) ∧
      (∀ a b, r.derives a b = true ↔ a ≠ b ∧ Relation.TransGen r.IsBase a b) ∧
      (r.IsAcyclic → IsStrictOrder TypeId fun a b => r.derives a b = true) ∧
      ∀ l : Loader, l.load.registry.BasesDeclared := by
  refine ⟨fun id => ?_, fun a b => ?_, isStrictOrder_derives, basesDeclared_load⟩
  · exact {
      climbs := by
        intro as
        constructor
        · exact fun h => h.unique (climbs_ancestors r id)
        · rintro rfl
          exact climbs_ancestors r id
      length_le := length_ancestors_le r id
      nodup := (climbs_ancestors r id).nodup
      nearest := fun _ _ => getElem?_ancestors
      reached := by
        intro a
        rw [mem_ancestors, Descends, and_comm, ne_comm]
      declared := fun hr _ => mem_ids_of_mem_ancestors hr }
  · rw [derives_iff, Descends, and_comm]

/-- A class of the module with that base. -/
def figure (name : String) (base : Option TypeId) : TypeDef :=
  ⟨⟨"Shop", "", name, .classType⟩,
    { Body.empty with base := base.map fun id => .declared id [] }⟩

/-- Three classes, each the base of the next one. -/
def figures : Registry where
  types := [figure "Figure" none, figure "Polygon" (some ⟨0⟩), figure "Square" (some ⟨1⟩)]
  nodup := by decide

theorem isLineage_ancestors_figures :
    figures.BasesDeclared ∧ figures.IsAcyclic ∧ figures.ancestors ⟨2⟩ = [⟨1⟩, ⟨0⟩] ∧
      (∀ a ∈ figures.ancestors ⟨2⟩, a ∈ figures.ids) ∧
      IsStrictOrder TypeId fun a b => figures.derives a b = true := by
  have hbase : ∀ a b, figures.IsBase a b → b.index < a.index ∧ b ∈ figures.ids := by
    intro a b h
    match a with
    | ⟨0⟩ => simp [IsBase, baseId?, get?, figures, figure] at h
    | ⟨1⟩ =>
      obtain rfl := Option.some.inj h
      decide
    | ⟨2⟩ =>
      obtain rfl := Option.some.inj h
      decide
    | ⟨n + 3⟩ => simp [IsBase, baseId?, get?, figures] at h
  have hdeclared : figures.BasesDeclared := fun a b h => (hbase a b h).2
  have hacyclic : figures.IsAcyclic := isAcyclic_of_lt fun a b h => (hbase a b h).1
  obtain ⟨hlineage, _, horder, _⟩ := isLineage_ancestors figures
  exact ⟨hdeclared, hacyclic, by decide, (hlineage ⟨2⟩).declared hdeclared, horder hacyclic⟩

/-- Two classes that are each other's base, and a class below them. -/
def knot : Registry where
  types := [figure "Left" (some ⟨1⟩), figure "Right" (some ⟨0⟩), figure "Lower" (some ⟨0⟩)]
  nodup := by decide

example : knot.ancestors ⟨2⟩ = [⟨0⟩, ⟨1⟩] ∧ knot.ancestors ⟨0⟩ = [⟨1⟩] := by decide

end ApiClient.Registry
