import ApiClient.Proofs.Loading
import ApiClient.Proofs.Lookup
import ApiClient.Proofs.Renaming.Registry
import Mathlib.Logic.Equiv.Basic

/-!
# Loading types in another order

When types without repeated keys come in another order, each gets another identity. Members are
resolved by names, so the loaded registries are renamings of each other.

Results:
* `exists_bijective_getElem?`: a rearranged list is the list with its places permuted.
* `Registry.Renames.lookup`, `Registry.Renames.resolve`: names lead to the same types.
* `Loader.exists_renames`: the registries of rearranged types are renamings of each other.
-/

namespace ApiClient

/-! ## Places -/

/-- Permutes the places after the first one. -/
def shift (σ : ℕ → ℕ) : ℕ → ℕ
  | 0 => 0
  | i + 1 => σ i + 1

theorem shift_bijective {σ : ℕ → ℕ} (h : Function.Bijective σ) : Function.Bijective (shift σ) := by
  constructor
  · intro i j hij
    cases i <;> cases j <;> simp only [shift, Nat.add_right_cancel_iff] at hij
    · rfl
    · omega
    · omega
    · rw [h.1 hij]
  · intro i
    cases i with
    | zero => exact ⟨0, rfl⟩
    | succ i =>
      obtain ⟨j, rfl⟩ := h.2 i
      exact ⟨j + 1, rfl⟩

theorem exists_bijective_getElem? {α : Type} {as bs : List α} (h : as.Perm bs) :
    ∃ σ : ℕ → ℕ, Function.Bijective σ ∧ ∀ i, bs[σ i]? = as[i]? := by
  induction h with
  | nil => exact ⟨id, Function.bijective_id, fun _ => rfl⟩
  | cons a _ ih =>
    obtain ⟨σ, hbijective, hσ⟩ := ih
    refine ⟨shift σ, shift_bijective hbijective, fun i => ?_⟩
    cases i with
    | zero => rfl
    | succ i => exact hσ i
  | swap a b as =>
    refine ⟨Equiv.swap 0 1, (Equiv.swap 0 1).bijective, fun i => ?_⟩
    match i with
    | 0 => simp
    | 1 => simp
    | i + 2 =>
      rw [Equiv.swap_apply_of_ne_of_ne (by omega) (by omega)]
      rfl
  | trans _ _ ih ih' =>
    obtain ⟨σ, hbijective, hσ⟩ := ih
    obtain ⟨τ, hbijective', hτ⟩ := ih'
    exact ⟨τ ∘ σ, hbijective'.comp hbijective, fun i => (hτ (σ i)).trans (hσ i)⟩

/-! ## Resolving -/

namespace Registry.Renames

variable {f : TypeId → TypeId} {r r' : Registry} (h : r.Renames f r')
include h

theorem mem_types_iff {d' : TypeDef} : d' ∈ r'.types ↔ ∃ d ∈ r.types, d.rename f = d' := by
  simp only [Registry.mem_types_iff]
  constructor
  · rintro ⟨id, hid⟩
    obtain ⟨a, rfl⟩ := h.exists_eq id
    rw [h.get?] at hid
    obtain ⟨d, hd, rfl⟩ := Option.map_eq_some_iff.1 hid
    exact ⟨d, ⟨a, hd⟩, rfl⟩
  · rintro ⟨d, ⟨a, ha⟩, rfl⟩
    exact ⟨f a, by rw [h.get?, ha, Option.map_some]⟩

theorem prevails (module : String) (d : TypeDef) :
    r'.Prevails module (d.rename f) ↔ r.Prevails module d := by
  refine or_congr Iff.rfl ⟨?_, ?_⟩
  · intro hd e he
    exact hd (e.rename f) (h.mem_types_iff.2 ⟨e, he, rfl⟩)
  · intro hd e' he'
    obtain ⟨e, he, rfl⟩ := h.mem_types_iff.1 he'
    exact hd e he

/-- What look-up finds is told by declarations alone, not by their order. -/
theorem lookup (qualified module : String) :
    r'.lookup qualified module = (r.lookup qualified module).map f := by
  refine Option.ext fun id => ?_
  obtain ⟨a, rfl⟩ := h.exists_eq id
  rw [lookup_eq_some_iff, h.get?, Option.map_eq_some_iff]
  constructor
  · rintro ⟨d', hd', hname, hprevails⟩
    obtain ⟨d, hd, rfl⟩ := Option.map_eq_some_iff.1 hd'
    exact ⟨a, lookup_eq_some_iff.2 ⟨d, hd, hname, (h.prevails module d).1 hprevails⟩, rfl⟩
  · rintro ⟨b, hb, he⟩
    obtain rfl := h.injective he
    obtain ⟨d, hd, hname, hprevails⟩ := lookup_eq_some_iff.1 hb
    exact ⟨d.rename f, by rw [hd, Option.map_some], hname, (h.prevails module d).2 hprevails⟩

theorem resolve (module : String) (e : TypeExpr) :
    r'.resolve module e = (r.resolve module e).rename f := by
  induction e using TypeExpr.induction with
  | named name args ih =>
    have hargs : args.map (r'.resolve module) =
        (args.map (r.resolve module)).map (TypeRef.rename f) := by
      rw [List.map_map]
      exact List.map_congr_left ih
    rw [Registry.resolve, Registry.resolve, h.lookup, resolveAll_eq_map, resolveAll_eq_map, hargs]
    cases r.lookup name module with
    | none => rw [Option.map_none, TypeRef.rename_external]
    | some id => rw [Option.map_some, TypeRef.rename_declared]
  | array e ih => rw [Registry.resolve, Registry.resolve, ih, TypeRef.rename_array]

theorem body (module : String) (t : TypeDocument) :
    Loader.body r' module t = (Loader.body r module t).rename f := by
  have hbase : t.base.map (r'.resolve module) =
      t.base.map fun e => (r.resolve module e).rename f :=
    Option.map_congr fun e _ => h.resolve module e
  have hreturns : ∀ e : Option TypeExpr, (e.map (r'.resolve module)).filter (!·.isVoid) =
      ((e.map (r.resolve module)).filter (!·.isVoid)).map (TypeRef.rename f) := by
    intro e
    cases e with
    | none => rfl
    | some e =>
      rw [Option.map_some, Option.map_some, Option.filter_some, Option.filter_some, h.resolve,
        TypeRef.isVoid_rename]
      split <;> rfl
  simp only [Loader.body, Body.rename, Option.map_map, List.map_map, Function.comp_def,
    PropertyDef.rename, ConstantDef.rename, MethodDef.rename, ParameterDef.rename, h.resolve,
    hbase, hreturns]

theorem filled (p : String × TypeDocument) :
    Loader.filled r' p = (Loader.filled r p).rename f := by
  rw [Loader.filled, Loader.filled, h.body]
  rfl

end Registry.Renames

/-! ## Loading -/

namespace Loader

/-- Loading the same types in another order gives the same registry with other identities. -/
theorem exists_renames {l l' : Loader} (hperm : l.types.Perm l'.types)
    (hkeys : (l.types.map key).Nodup) :
    ∃ f, l.load.registry.Renames f l'.load.registry := by
  have hkeys' : (l'.types.map key).Nodup := (hperm.map key).nodup_iff.1 hkeys
  obtain ⟨σ, hbijective, hσ⟩ := exists_bijective_getElem? hperm
  have hmk : Function.Bijective TypeId.mk :=
    ⟨fun _ _ h => TypeId.mk.inj h, fun id => ⟨id.index, rfl⟩⟩
  have hindex : Function.Bijective TypeId.index :=
    ⟨fun ⟨_⟩ ⟨_⟩ h => congrArg _ h, fun i => ⟨⟨i⟩, rfl⟩⟩
  have hf : Function.Bijective fun id : TypeId => (⟨σ id.index⟩ : TypeId) :=
    hmk.comp (hbijective.comp hindex)
  have hnames : l.bareRegistry.Renames (fun id => ⟨σ id.index⟩) l'.bareRegistry := by
    refine ⟨hf, ?_, fun id => ?_⟩
    · rw [bareRegistry_types, bareRegistry_types, fresh_empty_of_nodup hkeys, fresh_empty_of_nodup hkeys',
        List.length_map, List.length_map, hperm.length_eq]
    · unfold Registry.get?
      rw [bareRegistry_types, bareRegistry_types, fresh_empty_of_nodup hkeys, fresh_empty_of_nodup hkeys',
        List.getElem?_map, List.getElem?_map, hσ, Option.map_map]
      rfl
  refine ⟨_, hf, ?_, fun id => ?_⟩
  · rw [load_types, load_types, fresh_empty_of_nodup hkeys, fresh_empty_of_nodup hkeys',
      List.length_map, List.length_map, hperm.length_eq]
  · unfold Registry.get?
    rw [load_types, load_types, fresh_empty_of_nodup hkeys, fresh_empty_of_nodup hkeys',
      List.getElem?_map, List.getElem?_map, hσ, Option.map_map]
    exact Option.map_congr fun p _ => hnames.filled p

end Loader

end ApiClient
