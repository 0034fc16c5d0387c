import ApiClient.Proofs.LoadingOrder
import Mathlib.Data.List.TakeWhile

/-!
# Types that are lost

A document is refused if two of its types have the same namespace and name. Declaring, however, goes
by the qualified name, in which the place of the dot between the two is not seen. Of two types that
differ in that place only the first is declared; the other one is left out without a word.

* `DeclaredOnce`, `Lost`: one type of the registry is what a document describes; none is.
* `LosesNothing`: all types of all accepted documents are declared once.

Results:
* `qualify_inj`: without dots in the names the qualified name tells namespace and name.
* `declaredOnce_iff`, `lost_of_not_isFirst`: declared are the first types of each qualified name of
  a document, and no others.
* `losesNothing_of_dotless`: nothing is lost if no name has a dot.
* `losesNothing_iff`: nothing is lost exactly if no accepted document repeats a qualified name.
* `not_losesNothing_cap`: a document of which a type is lost.
-/

namespace ApiClient

/-- The name of a type with its namespace. -/
def TypeDocument.qualifiedName (t : TypeDocument) : String :=
  qualify t.space t.name

/-! ## Qualified names -/

theorem toList_qualify (space name : String) : (qualify space name).toList =
    if space.isEmpty then name.toList else space.toList ++ '.' :: name.toList := by
  unfold qualify
  split <;> simp

/-- Without a dot, the name is what follows the last dot. -/
theorem takeWhile_reverse_qualify {name : String} (h : '.' ∉ name.toList) (space : String) :
    (qualify space name).toList.reverse.takeWhile (· != '.') = name.toList.reverse := by
  have hname : ∀ c ∈ name.toList.reverse, (c != '.') = true := by
    intro c hc
    rw [bne_iff_ne]
    rintro rfl
    exact h (List.mem_reverse.1 hc)
  rw [toList_qualify]
  split
  · exact List.takeWhile_eq_self_iff.2 hname
  · rw [List.reverse_append, List.reverse_cons, List.append_assoc,
      List.takeWhile_append_of_pos hname]
    simp

theorem qualify_inj {space name space' name' : String} (h : '.' ∉ name.toList)
    (h' : '.' ∉ name'.toList) (he : qualify space name = qualify space' name') :
    space = space' ∧ name = name' := by
  have hname : name = name' := by
    have hlast := takeWhile_reverse_qualify h space
    rw [he, takeWhile_reverse_qualify h' space'] at hlast
    exact String.toList_injective (List.reverse_injective hlast).symm
  subst hname
  refine ⟨?_, rfl⟩
  have hchars := congrArg String.toList he
  rw [toList_qualify, toList_qualify] at hchars
  split at hchars <;> rename_i hspace <;> split at hchars <;> rename_i hspace'
  · rw [String.isEmpty_iff.1 hspace, String.isEmpty_iff.1 hspace']
  · exact absurd (hchars ▸ by simp) h
  · exact absurd (hchars ▸ by simp) h
  · exact String.toList_injective (List.append_cancel_right hchars)

namespace Loader

/-! ## Specification -/

/-- Exactly one type of the registry is the one that the document of the module describes. -/
def DeclaredOnce (r : Registry) (module : String) (t : TypeDocument) : Prop :=
  ∃! id, ∃ d, r.get? id = some d ∧ Describes r module t d

/-- No type of the registry has the namespace and name of the type in its module. -/
def Lost (r : Registry) (module : String) (t : TypeDocument) : Prop :=
  ∀ d ∈ r.types, ¬ (d.module = module ∧ d.space = t.space ∧ d.name = t.name)

/-- All types of the accepted documents are declared once. -/
def LosesNothing (calls : List (String × ModuleDocument)) : Prop :=
  ∀ p ∈ accepted .empty calls, ∀ t ∈ p.2.types,
    DeclaredOnce (addEach .empty calls).load.registry (moduleOf p) t

/-! ## Types of accepted documents -/

variable {calls : List (String × ModuleDocument)} {p : String × ModuleDocument} {t : TypeDocument}

theorem eq_of_moduleOf_eq {q : String × ModuleDocument} (hp : p ∈ accepted .empty calls)
    (hq : q ∈ accepted .empty calls) (h : moduleOf p = moduleOf q) : p = q :=
  List.inj_on_of_nodup_map (accepted_modules_nodup calls) hp hq h

theorem names_nodup (hp : p ∈ accepted .empty calls) :
    (p.2.types.map fun t => (t.space, t.name)).Nodup :=
  (typesFault_eq_none_iff.1 (typesFault_of_mem_accepted hp)).2.1

/-- Other modules have other keys, so a type comes first exactly if it does in its document. -/
theorem isFirst_types_iff (hp : p ∈ accepted .empty calls) (ht : t ∈ p.2.types) :
    IsFirst key (addEach .empty calls).types (moduleOf p, t) ↔
      IsFirst TypeDocument.qualifiedName p.2.types t := by
  have hblocks : (addEach .empty calls).sorted.Pairwise fun q q' =>
      ∀ a ∈ q.2.types.map (q.1, ·), ∀ b ∈ q'.2.types.map (q'.1, ·), key a ≠ key b := by
    refine (Text.sortByText_pairwise_lt (addEach_empty_nodup calls)).imp fun {q q'} hlt => ?_
    intro a ha b hb hkey
    obtain ⟨t, _, rfl⟩ := List.mem_map.1 ha
    obtain ⟨t', _, rfl⟩ := List.mem_map.1 hb
    exact String.ne_of_lt hlt (Prod.mk.inj hkey).2
  have hqueued : queued p ∈ (addEach .empty calls).sorted := mem_sorted_addEach.2 ⟨p, hp, rfl⟩
  refine (isFirst_flatMap hblocks hqueued (List.mem_map_of_mem ht)).trans ?_
  refine isFirst_map (fun _ _ h => (Prod.mk.inj h).2) fun t t' => ?_
  exact ⟨fun h => (Prod.mk.inj h).1, fun h => Prod.ext h rfl⟩

/-! ## Declared types -/

theorem declaredOnce_of_isFirst (hp : p ∈ accepted .empty calls)
    (h : IsFirst TypeDocument.qualifiedName p.2.types t) :
    DeclaredOnce (addEach .empty calls).load.registry (moduleOf p) t := by
  have hmem : filled (addEach .empty calls).load.registry (moduleOf p, t) ∈
      (addEach .empty calls).load.registry.types :=
    mem_load_types.2 ⟨_, (isFirst_types_iff hp h.mem).2 h, rfl⟩
  obtain ⟨id, hid⟩ := Registry.mem_types_iff.1 hmem
  refine ⟨id, ⟨_, hid, describes_iff.2 rfl⟩, ?_⟩
  rintro a ⟨d, ha, hd⟩
  obtain rfl := describes_iff.1 hd
  exact Registry.eq_of_key_eq ha hid rfl

theorem lost_of_not_isFirst (hp : p ∈ accepted .empty calls) (ht : t ∈ p.2.types)
    (h : ¬ IsFirst TypeDocument.qualifiedName p.2.types t) :
    Lost (addEach .empty calls).load.registry (moduleOf p) t := by
  rintro d hd ⟨hmodule, hspace, hname⟩
  obtain ⟨q, hfirst, rfl⟩ := mem_load_types.1 hd
  obtain ⟨p', hp', t', ht', rfl⟩ := mem_types_addEach.1 hfirst.mem
  obtain rfl := eq_of_moduleOf_eq hp' hp hmodule
  -- No two types of the document share both, so this one is the type itself and comes first.
  have hsame : t' = t :=
    List.inj_on_of_nodup_map (names_nodup hp) ht' ht (Prod.ext hspace hname)
  rw [hsame] at hfirst
  exact h ((isFirst_types_iff hp ht).1 hfirst)

theorem declaredOnce_iff (hp : p ∈ accepted .empty calls) (ht : t ∈ p.2.types) :
    DeclaredOnce (addEach .empty calls).load.registry (moduleOf p) t ↔
      IsFirst TypeDocument.qualifiedName p.2.types t := by
  constructor
  · rintro ⟨id, ⟨d, hid, hd⟩, _⟩
    by_contra hfirst
    exact lost_of_not_isFirst hp ht hfirst d (Registry.mem_types_iff.2 ⟨id, hid⟩)
      ⟨hd.owner, hd.space, hd.name⟩
  · exact declaredOnce_of_isFirst hp

/-! ## Lost types -/

theorem losesNothing_iff_nodup : LosesNothing calls ↔
    ∀ p ∈ accepted .empty calls, (p.2.types.map TypeDocument.qualifiedName).Nodup := by
  refine forall₂_congr fun p hp => ?_
  rw [← forall_isFirst_iff ((names_nodup hp).of_map _)]
  exact forall₂_congr fun t ht => declaredOnce_iff hp ht

/-- Nothing is lost unless a name has a dot. -/
theorem losesNothing_of_dotless
    (h : ∀ p ∈ accepted .empty calls, ∀ t ∈ p.2.types, '.' ∉ t.name.toList) :
    LosesNothing calls := by
  refine losesNothing_iff_nodup.2 fun p hp => ?_
  refine List.Nodup.map_on (fun t ht t' ht' he => ?_) ((names_nodup hp).of_map _)
  obtain ⟨hspace, hname⟩ := qualify_inj (h p hp t ht) (h p hp t' ht') he
  exact List.inj_on_of_nodup_map (names_nodup hp) ht ht' (Prod.ext hspace hname)

/-- Of an accepted document, the first type of each qualified name is declared once and the others
are lost. So nothing is lost exactly if no accepted document repeats a qualified name. -/
theorem losesNothing_iff (calls : List (String × ModuleDocument)) :
    (∀ p ∈ accepted .empty calls, ∀ t ∈ p.2.types,
      IsFirst TypeDocument.qualifiedName p.2.types t ∧
          DeclaredOnce (addEach .empty calls).load.registry (moduleOf p) t ∨
        ¬ IsFirst TypeDocument.qualifiedName p.2.types t ∧
          Lost (addEach .empty calls).load.registry (moduleOf p) t) ∧
    (LosesNothing calls ↔
      ∀ p ∈ accepted .empty calls, (p.2.types.map TypeDocument.qualifiedName).Nodup) := by
  refine ⟨fun p hp t ht => ?_, losesNothing_iff_nodup⟩
  by_cases hfirst : IsFirst TypeDocument.qualifiedName p.2.types t
  · exact .inl ⟨hfirst, declaredOnce_of_isFirst hp hfirst⟩
  · exact .inr ⟨hfirst, lost_of_not_isFirst hp ht hfirst⟩

/-- A cap of the pens of a shop, and a kind of caps whose name has the dot. -/
def caps : List TypeDocument :=
  let blank := TypeDocument.shape.blank
  [{ blank with name := "Cap", space := "Shop.Pen" },
    { blank with name := "Pen.Cap", space := "Shop", kind := .enumType, values := [⟨"Round", 1⟩] }]

/-- The second cap is accepted, but not declared. -/
theorem not_losesNothing_cap : ¬ LosesNothing [("Shop", ⟨none, caps⟩)] := by
  have haccepted : accepted .empty [("Shop", ⟨none, caps⟩)] = [("Shop", ⟨none, caps⟩)] := rfl
  intro h
  have hnodup := losesNothing_iff_nodup.1 h ("Shop", ⟨none, caps⟩) (haccepted ▸ .head _)
  exact absurd hnodup (by decide)

end Loader

end ApiClient
