import ApiClient.Collections.Distinct
import Mathlib.Data.Prod.Lex

/-!
# First elements by their places

Where elements have places in an order, of each key the element at the first place counts. The
specification is `ListsFirst`: it tells a list by places and keys, whereas `distinctBy` goes through
the elements and remembers the keys.

* `IsFirstAt`: the element stands at the place, and no other of its key comes before.
* `enumerate`, `enumerateSome`: the elements of lists, or the results for a list, with their places.

Results:
* `isFirst_iff_of_pairwise`: in a list by places, to be first is to have the first place.
* `listsFirst_distinctBy`: `distinctBy` lists the first elements of the keys that were not seen.
* `ListsFirst.of_cover`: later places of the same elements make no difference.
-/

namespace ApiClient

variable {ι α β γ : Type}

/-! ## Specification -/

section

variable [LT ι]

/-- The element stands at the place, and none of its key stands at an earlier one. -/
def IsFirstAt (key : α → β) (At : ι → α → Prop) (i : ι) (a : α) : Prop :=
  At i a ∧ ∀ j < i, ∀ b, At j b → key b ≠ key a

/-- The list has exactly the elements that are first of their keys, in the order of their places. -/
def ListsFirst (key : α → β) (At : ι → α → Prop) (as : List α) : Prop :=
  ∃ placed : List (ι × α), placed.map Prod.snd = as ∧ (placed.map Prod.fst).Pairwise (· < ·) ∧
    ∀ i a, (i, a) ∈ placed ↔ IsFirstAt key At i a

end

/-! ## Lists by places -/

variable {key : α → β} {At At' : ι → α → Prop} {i : ι} {a : α} {as : List α}
  {placed : List (ι × α)}

theorem isFirst_iff_of_pairwise [LinearOrder ι] (hplaces : (placed.map Prod.fst).Pairwise (· < ·)) :
    IsFirst (key ∘ Prod.snd) placed (i, a) ↔ IsFirstAt key (fun i a => (i, a) ∈ placed) i a := by
  rw [List.pairwise_map] at hplaces
  constructor
  · rintro ⟨before, after, rfl, hfirst⟩
    refine ⟨by simp, fun j hji b hb hkey => hfirst (List.mem_map.2 ⟨(j, b), ?_, hkey⟩)⟩
    refine (List.mem_append.1 hb).resolve_right fun hb => ?_
    rcases List.mem_cons.1 hb with he | hb
    · exact hji.ne (Prod.mk.inj he).1
    · have hij := (List.pairwise_cons.1 (List.pairwise_append.1 hplaces).2.1).1 _ hb
      exact lt_asymm hji hij
  · rintro ⟨hmem, hfirst⟩
    obtain ⟨before, after, rfl⟩ := List.append_of_mem hmem
    refine ⟨before, after, rfl, fun hbefore => ?_⟩
    obtain ⟨⟨j, b⟩, hb, hkey⟩ := List.mem_map.1 hbefore
    have hji : j < i := (List.pairwise_append.1 hplaces).2.2 _ hb _ (.head _)
    exact hfirst j hji b (List.mem_append_left _ hb) hkey

theorem isFirstAt_and_iff [LT ι] (p : β → Prop) :
    IsFirstAt key (fun i a => At i a ∧ p (key a)) i a ↔ p (key a) ∧ IsFirstAt key At i a := by
  constructor
  · rintro ⟨⟨ha, hp⟩, hfirst⟩
    exact ⟨hp, ha, fun j hj b hb hkey => hfirst j hj b ⟨hb, hkey ▸ hp⟩ hkey⟩
  · rintro ⟨hp, ha, hfirst⟩
    exact ⟨⟨ha, hp⟩, fun j hj b hb => hfirst j hj b hb.1⟩

/-- The first elements of the keys that were not seen are kept, in order. -/
theorem listsFirst_distinctBy [LinearOrder ι] [DecidableEq β] (key : α → β)
    (hplaces : (placed.map Prod.fst).Pairwise (· < ·)) (seen : List β) :
    ListsFirst key (fun i a => (i, a) ∈ placed ∧ key a ∉ seen)
      (distinctBy key seen (placed.map Prod.snd)) := by
  refine ⟨distinctBy (key ∘ Prod.snd) seen placed, ?_, ?_, fun i a => ?_⟩
  · exact (distinctBy_map (fun _ => rfl) seen placed).symm
  · exact hplaces.sublist ((distinctBy_sublist _ _ _).map _)
  · rw [mem_distinctBy_iff, isFirst_iff_of_pairwise hplaces]
    exact Iff.symm (isFirstAt_and_iff (· ∉ seen))

theorem ListsFirst.congr [LT ι] (h : ListsFirst key At as) (hAt : ∀ i a, At i a ↔ At' i a) :
    ListsFirst key At' as := by
  rw [← funext₂ fun i a => propext (hAt i a)]
  exact h

/-- Elements that stand at an earlier place already can be left out. -/
theorem ListsFirst.of_cover [LinearOrder ι] (hsub : ∀ i a, At' i a → At i a)
    (hcover : ∀ i a, At i a → ∃ j ≤ i, At' j a) (h : ListsFirst key At' as) :
    ListsFirst key At as := by
  obtain ⟨placed, has, hplaces, hmem⟩ := h
  refine ⟨placed, has, hplaces, fun i a => (hmem i a).trans ?_⟩
  constructor
  · rintro ⟨ha, hfirst⟩
    refine ⟨hsub i a ha, fun j hji b hb => ?_⟩
    obtain ⟨k, hkj, hb⟩ := hcover j b hb
    exact hfirst k (hkj.trans_lt hji) b hb
  · rintro ⟨ha, hfirst⟩
    obtain ⟨j, hji, ha'⟩ := hcover i a ha
    rcases hji.lt_or_eq with hji | rfl
    · exact absurd rfl (hfirst j hji a (hsub j a ha'))
    · exact ⟨ha', fun k hk b hb => hfirst k hk b (hsub k b hb)⟩

/-! ## Places in lists -/

/-- The elements of lists with their places: which list it is, then where in it. -/
def enumerate (ls : List (List α)) : List ((ℕ ×ₗ ℕ) × α) :=
  ls.zipIdx.flatMap fun l => l.1.zipIdx.map fun a => (toLex (l.2, a.2), a.1)

/-- The results of a function where it has one, with the places of its arguments. -/
def enumerateSome (f : γ → Option α) (cs : List γ) : List (ℕ × α) :=
  cs.zipIdx.filterMap fun c => (f c.1).map fun a => (c.2, a)

theorem zipIdx_pairwise (as : List α) : as.zipIdx.Pairwise fun a b => a.2 < b.2 := by
  rw [← List.pairwise_map (f := Prod.snd) (R := (· < ·)), List.zipIdx_map_snd]
  exact List.pairwise_lt_range'

theorem map_snd_enumerate (ls : List (List α)) : (enumerate ls).map Prod.snd = ls.flatten := by
  have hlist : ∀ l : List α × ℕ,
      (l.1.zipIdx.map fun a => ((toLex (l.2, a.2) : ℕ ×ₗ ℕ), a.1)).map Prod.snd = l.1 := by
    intro l
    rw [List.map_map]
    exact List.zipIdx_map_fst 0 l.1
  rw [enumerate, List.map_flatMap]
  simp only [hlist]
  rw [List.flatMap_def, List.zipIdx_map_fst]

theorem enumerate_pairwise (ls : List (List α)) :
    ((enumerate ls).map Prod.fst).Pairwise (· < ·) := by
  rw [List.pairwise_map, enumerate, List.pairwise_flatMap]
  constructor
  · intro l _
    rw [List.pairwise_map]
    refine (zipIdx_pairwise l.1).imp fun hlt => ?_
    exact Prod.Lex.toLex_lt_toLex.2 (.inr ⟨rfl, hlt⟩)
  · refine (zipIdx_pairwise ls).imp fun hlt x hx y hy => ?_
    obtain ⟨_, _, rfl⟩ := List.mem_map.1 hx
    obtain ⟨_, _, rfl⟩ := List.mem_map.1 hy
    exact Prod.Lex.toLex_lt_toLex.2 (.inl hlt)

theorem mem_enumerate {ls : List (List α)} {place : ℕ ×ₗ ℕ} {a : α} :
    (place, a) ∈ enumerate ls ↔
      ∃ as, ls[(ofLex place).1]? = some as ∧ as[(ofLex place).2]? = some a := by
  rw [enumerate, List.mem_flatMap]
  constructor
  · rintro ⟨⟨as, n⟩, has, hmem⟩
    obtain ⟨⟨b, i⟩, hb, he⟩ := List.mem_map.1 hmem
    obtain ⟨rfl, rfl⟩ := Prod.mk.inj he
    exact ⟨as, List.mem_zipIdx_iff_getElem?.1 has, List.mem_zipIdx_iff_getElem?.1 hb⟩
  · rintro ⟨as, has, ha⟩
    refine ⟨(as, (ofLex place).1), List.mem_zipIdx_iff_getElem?.2 has, ?_⟩
    exact List.mem_map.2 ⟨(a, (ofLex place).2), List.mem_zipIdx_iff_getElem?.2 ha, rfl⟩

theorem map_snd_enumerateSome (f : γ → Option α) (cs : List γ) :
    (enumerateSome f cs).map Prod.snd = cs.filterMap f := by
  have hresult : ∀ c : γ × ℕ, ((f c.1).map fun a => (c.2, a)).map Prod.snd = f c.1 := by
    intro c
    rw [Option.map_map]
    exact Option.map_id'
  rw [enumerateSome, List.map_filterMap]
  simp only [hresult]
  change cs.zipIdx.filterMap (f ∘ Prod.fst) = _
  rw [← List.filterMap_map, List.zipIdx_map_fst]

theorem enumerateSome_pairwise (f : γ → Option α) (cs : List γ) :
    ((enumerateSome f cs).map Prod.fst).Pairwise (· < ·) := by
  rw [List.pairwise_map, enumerateSome, List.pairwise_filterMap]
  refine (zipIdx_pairwise cs).imp fun hlt x hx y hy => ?_
  obtain ⟨_, _, rfl⟩ := Option.map_eq_some_iff.1 hx
  obtain ⟨_, _, rfl⟩ := Option.map_eq_some_iff.1 hy
  exact hlt

theorem mem_enumerateSome {f : γ → Option α} {cs : List γ} {i : ℕ} {a : α} :
    (i, a) ∈ enumerateSome f cs ↔ ∃ c, cs[i]? = some c ∧ f c = some a := by
  rw [enumerateSome, List.mem_filterMap]
  constructor
  · rintro ⟨⟨c, j⟩, hc, he⟩
    obtain ⟨b, hb, he⟩ := Option.map_eq_some_iff.1 he
    obtain ⟨rfl, rfl⟩ := Prod.mk.inj he
    exact ⟨c, List.mem_zipIdx_iff_getElem?.1 hc, hb⟩
  · rintro ⟨c, hc, ha⟩
    exact ⟨(c, i), List.mem_zipIdx_iff_getElem?.2 hc, Option.map_eq_some_iff.2 ⟨a, ha, rfl⟩⟩

end ApiClient
