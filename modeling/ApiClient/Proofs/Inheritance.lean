import ApiClient.Proofs.Registry
import ApiClient.Registry.Inheritance
import Mathlib.Data.List.Perm.Subperm
import Mathlib.Logic.Relation

/-!
# Base chains

`Registry.ancestors` follows bases until it meets a type again, with as many steps as there are
types. Base chains may be cyclic.

The specification has no bound on the steps: `Climbs` goes up from base to base, and ends where there
is none or where it has been before.

Results:
* `climbs_ancestors`: the bound never cuts the chain short.
* `Climbs.unique`, `Climbs.transGen_of_mem`, `Climbs.closed`: there is one such chain; it is reached
  from the type, and it leads nowhere else.
* `mem_ancestors`: the ancestors of a type are what its base chain reaches, the type itself apart.
* `mem_allProperties_of_first`: a property that a type declares first of its name is among its
  properties.
-/

namespace ApiClient.Registry

variable {r : Registry} {seen as bs : List TypeId} {a b c d : TypeId}

/-! ## Specification -/

/-- The second type is the declared base of the first one. -/
def IsBase (r : Registry) (sub base : TypeId) : Prop :=
  r.baseId? sub = some base

/-- The first type is a strict descendant of the second one: its base chain leads to another
type. -/
def Descends (r : Registry) (sub ancestor : TypeId) : Prop :=
  Relation.TransGen r.IsBase sub ancestor ∧ sub ≠ ancestor

/-- Going up from a type, with the bases on the way. It ends at the top or before a type that was
seen, and what it comes through is seen from then on. -/
inductive Climbs (r : Registry) : List TypeId → TypeId → List TypeId → Prop
  | top {seen : List TypeId} {a : TypeId} : r.baseId? a = none → r.Climbs seen a []
  | again {seen : List TypeId} {a base : TypeId} : r.IsBase a base → base ∈ seen →
    r.Climbs seen a []
  | up {seen as : List TypeId} {a base : TypeId} : r.IsBase a base → base ∉ seen →
    r.Climbs (base :: seen) base as → r.Climbs seen a (base :: as)

theorem IsBase.unique (h : r.IsBase a b) (h' : r.IsBase a c) : b = c :=
  Option.some.inj (h.symm.trans h')

theorem mem_ids_of_isBase {sub base : TypeId} (h : r.IsBase sub base) : sub ∈ r.ids := by
  unfold IsBase baseId? at h
  split at h
  · exact mem_ids.2 ⟨_, by assumption⟩
  · simp at h

theorem Descends.trans (hab : r.Descends a b) (hbc : r.Descends b c) (hac : a ≠ c) :
    r.Descends a c :=
  ⟨hab.1.trans hbc.1, hac⟩

/-! ## Termination

All types that were seen are declared, except that the current one need not be. So there are not
many of them, and the chain ends. -/

theorem length_le_of_seen (hn : seen.Nodup) (hids : seen ⊆ a :: r.ids) :
    seen.length ≤ r.types.length + 1 := by
  have := (List.subperm_of_subset hn hids).length_le
  rwa [List.length_cons, length_ids] at this

theorem seen_subset_of_isBase (h : r.IsBase a b) (hids : seen ⊆ a :: r.ids) :
    b :: seen ⊆ b :: r.ids := by
  refine List.cons_subset_cons b fun c hc => ?_
  rcases List.mem_cons.1 (hids hc) with rfl | hc
  · exact mem_ids_of_isBase h
  · exact hc

theorem climbs_chain {fuel : ℕ} (hn : seen.Nodup) (hids : seen ⊆ a :: r.ids)
    (hfuel : r.types.length + 2 ≤ fuel + seen.length) :
    r.Climbs seen a (r.chain fuel seen a) := by
  induction fuel generalizing seen a with
  | zero =>
    have := length_le_of_seen hn hids
    omega
  | succ fuel ih =>
    unfold chain
    split
    · exact .top (by assumption)
    · rename_i base hbase
      split
      · exact .again hbase (by assumption)
      · rename_i hseen
        refine .up hbase hseen (ih (List.nodup_cons.2 ⟨hseen, hn⟩) ?_ ?_)
        · exact seen_subset_of_isBase hbase hids
        · rw [List.length_cons]
          omega

/-- Going up from a type ends, and gives its ancestors. -/
theorem climbs_ancestors (r : Registry) (id : TypeId) : r.Climbs [id] id (r.ancestors id) :=
  climbs_chain (List.nodup_singleton id) (by simp) (by simp)

/-! ## Chains -/

theorem Climbs.unique (h : r.Climbs seen a as) (h' : r.Climbs seen a bs) : as = bs := by
  induction h generalizing bs with
  | top htop =>
    cases h' with
    | top => rfl
    | again hbase => simp [IsBase, htop] at hbase
    | up hbase => simp [IsBase, htop] at hbase
  | again hbase hseen =>
    cases h' with
    | top htop => simp [IsBase, htop] at hbase
    | again => rfl
    | up hbase' hnew => exact absurd (hbase.unique hbase' ▸ hseen) hnew
  | up hbase hnew _ ih =>
    cases h' with
    | top htop => simp [IsBase, htop] at hbase
    | again hbase' hseen => exact absurd (hbase'.unique hbase ▸ hseen) hnew
    | up hbase' _ hrest =>
      obtain rfl := hbase.unique hbase'
      rw [ih hrest]

theorem Climbs.transGen_of_mem (h : r.Climbs seen a as) (hb : b ∈ as) :
    Relation.TransGen r.IsBase a b ∧ b ∉ seen := by
  induction h with
  | top => simp at hb
  | again => simp at hb
  | up hbase hnew _ ih =>
    rcases List.mem_cons.1 hb with rfl | hb
    · exact ⟨.single hbase, hnew⟩
    · obtain ⟨hreached, hunseen⟩ := ih hb
      exact ⟨.head hbase hreached, fun hseen => hunseen (.tail _ hseen)⟩

/-- What is left out has been seen: every base of the chain is in the chain, or was seen before. -/
theorem Climbs.closed (h : r.Climbs seen a as) (hc : c ∈ a :: as) (hcd : r.IsBase c d) :
    d ∈ seen ∨ d ∈ as := by
  induction h with
  | top htop =>
    obtain rfl := List.mem_singleton.1 hc
    simp [IsBase, htop] at hcd
  | again hbase hseen =>
    obtain rfl := List.mem_singleton.1 hc
    exact .inl (hbase.unique hcd ▸ hseen)
  | up hbase _ _ ih =>
    rcases List.mem_cons.1 hc with rfl | hc
    · exact .inr (hbase.unique hcd ▸ .head _)
    · rcases ih hc with hd | hd
      · rcases List.mem_cons.1 hd with rfl | hd
        · exact .inr (.head _)
        · exact .inl hd
      · exact .inr (.tail _ hd)

/-! ## Ancestors -/

theorem mem_ancestors_of_transGen (h : Relation.TransGen r.IsBase a b) :
    b ∈ a :: r.ancestors a := by
  have hclosed : ∀ c ∈ a :: r.ancestors a, ∀ d, r.IsBase c d → d ∈ a :: r.ancestors a := by
    intro c hc d hcd
    rcases (climbs_ancestors r a).closed hc hcd with hd | hd
    · exact List.mem_cons.2 (.inl (List.mem_singleton.1 hd))
    · exact .tail _ hd
  induction h with
  | single hb => exact hclosed a (.head _) _ hb
  | tail _ hcd hc => exact hclosed _ hc _ hcd

/-- The ancestors of a type are the types that it descends from. -/
theorem mem_ancestors {sub ancestor : TypeId} :
    ancestor ∈ r.ancestors sub ↔ r.Descends sub ancestor := by
  constructor
  · intro h
    obtain ⟨hreached, hunseen⟩ := (climbs_ancestors r sub).transGen_of_mem h
    exact ⟨hreached, fun he => hunseen (he ▸ .head _)⟩
  · rintro ⟨hreached, hne⟩
    exact (List.mem_cons.1 (mem_ancestors_of_transGen hreached)).resolve_left hne.symm

theorem derives_iff {sub ancestor : TypeId} :
    r.derives sub ancestor = true ↔ r.Descends sub ancestor := by
  rw [derives, List.contains_iff_mem, mem_ancestors]

/-! ## Properties -/

theorem mem_allProperties_of_first {id : TypeId} {d : TypeDef} {p : PropertyDef}
    {ps qs : List PropertyDef} (hd : r.get? id = some d) (hps : d.properties = ps ++ p :: qs)
    (hp : p.name ∉ ps.map PropertyDef.name) : p ∈ r.allProperties id := by
  have hown : r.ownProperties id = ps ++ p :: qs := by simp [ownProperties, hd, hps]
  rw [allProperties, List.flatMap_cons, hown, List.append_assoc, List.cons_append]
  exact mem_distinctBy_of_first List.not_mem_nil hp

end ApiClient.Registry
