import ApiClient.ModelSet
import Mathlib.Data.List.Nodup

/-!
# Identities of a registry

Results:
* `mem_ids`: the identities of a registry are those that it has a declaration for.
* `eq_of_key_eq`: qualified name and module tell declared types apart.
* `register_of_mem`, `register_of_not_mem`: a declaration is rejected and changes nothing, or adds a
  type at the end.
* `Attachment`, `attach`: a declared type is changed, but what names it stays. Filling in a body is
  such a change.
* `ModelSet.sorted_congr`: the order in which a set lists its members depends on them alone.
-/

namespace ApiClient

variable {r : Registry}

namespace Registry

/-! ## Identities -/

theorem mem_ids {id : TypeId} : id ∈ r.ids ↔ ∃ d, r.get? id = some d := by
  constructor
  · intro h
    obtain ⟨i, hi, rfl⟩ := List.mem_map.1 h
    exact ⟨_, List.getElem?_eq_getElem (List.mem_range.1 hi)⟩
  · rintro ⟨d, hd⟩
    obtain ⟨hi, _⟩ := List.getElem?_eq_some_iff.1 hd
    exact List.mem_map.2 ⟨id.index, List.mem_range.2 hi, rfl⟩

theorem ids_nodup (r : Registry) : r.ids.Nodup :=
  List.Nodup.map (fun _ _ h => TypeId.mk.inj h) List.nodup_range

@[simp] theorem length_ids (r : Registry) : r.ids.length = r.types.length := by
  simp [ids]

theorem eq_of_key_eq {a b : TypeId} {d e : TypeDef} (ha : r.get? a = some d)
    (hb : r.get? b = some e) (h : d.key = e.key) : a = b := by
  have hlt : a.index < (r.types.map fun d => d.key).length := by
    rw [List.length_map]
    exact (List.getElem?_eq_some_iff.1 ha).1
  have hkeys : (r.types.map fun d => d.key)[a.index]? = (r.types.map fun d => d.key)[b.index]? := by
    rw [List.getElem?_map, List.getElem?_map, show r.types[a.index]? = some d from ha,
      show r.types[b.index]? = some e from hb, Option.map_some, Option.map_some, h]
  have := (List.getElem?_inj hlt r.nodup).1 hkeys
  cases a
  cases b
  exact congrArg TypeId.mk this

end Registry

/-! ## Declarations -/

/-- A type as it is declared, without members. -/
def Declaration.bare (d : Declaration) : TypeDef :=
  { d, Body.empty with }

@[simp] theorem Declaration.bare_toDeclaration (d : Declaration) : d.bare.toDeclaration = d := rfl

namespace Registry

theorem register_of_mem {d : Declaration} (h : d.key ∈ r.types.map fun d => d.key) :
    (register d).run.run r = (.error (.moduleLoad d.module (.declaredTwice d.qualifiedName)), r) := by
  change (if h : _ then throw _ else _ : Action TypeId).run.run r = _
  rw [dif_pos h]
  rfl

theorem register_of_not_mem {d : Declaration} (h : d.key ∉ r.types.map fun d => d.key) :
    (register d).run.run r = (.ok ⟨r.types.length⟩, r.push d h) := by
  change (if h : _ then throw _ else _ : Action TypeId).run.run r = _
  rw [dif_neg h]
  rfl

@[simp] theorem types_push {d : Declaration} (h : d.key ∉ r.types.map fun d => d.key) :
    (r.push d h).types = r.types ++ [d.bare] := rfl

theorem declare_eq_error_iff {d : Declaration} :
    (∃ e, r.declare d = .error e) ↔ d.key ∈ r.types.map fun d => d.key := by
  by_cases h : d.key ∈ r.types.map fun d => d.key
  · simp [declare, register_of_mem h, h]
  · simp [declare, register_of_not_mem h, h]

end Registry

/-! ## Attachments -/

/-- A change to a declared type that leaves its module, namespace and name as they are. -/
structure Attachment where
  apply : TypeDef → TypeDef
  module_apply : ∀ d, (apply d).module = d.module
  space_apply : ∀ d, (apply d).space = d.space
  name_apply : ∀ d, (apply d).name = d.name

namespace Attachment

theorem key_apply (c : Attachment) (d : TypeDef) : (c.apply d).key = d.key := by
  simp only [Declaration.key, Declaration.qualifiedName, c.module_apply, c.space_apply,
    c.name_apply]

/-- The change of a body. -/
def ofBody (f : Body → Body) : Attachment where
  apply d := { d.toDeclaration, f d.toBody with }
  module_apply _ := rfl
  space_apply _ := rfl
  name_apply _ := rfl

end Attachment

namespace Registry

theorem keys_modify (types : List TypeDef) (i : ℕ) (c : Attachment) :
    (types.modify i c.apply).map (fun d => d.key) = types.map fun d => d.key := by
  refine List.ext_getElem? fun j => ?_
  rw [List.getElem?_map, List.getElem?_map, List.getElem?_modify]
  cases types[j]? with
  | none => rfl
  | some d =>
    by_cases hj : i = j
    · simp [hj, c.key_apply]
    · simp [hj]

/-- Changes a declared type. -/
def attach (r : Registry) (id : TypeId) (c : Attachment) : Registry where
  types := r.types.modify id.index c.apply
  nodup := by
    rw [keys_modify]
    exact r.nodup

theorem update_eq_attach (r : Registry) (id : TypeId) (f : Body → Body) :
    r.update id f = r.attach id (.ofBody f) := rfl

theorem get?_attach (r : Registry) (id a : TypeId) (c : Attachment) :
    (r.attach id c).get? a = if a = id then (r.get? a).map c.apply else r.get? a := by
  change (r.types.modify id.index c.apply)[a.index]? = _
  rw [List.getElem?_modify, get?]
  cases id
  cases a
  simp only [TypeId.mk.injEq, eq_comm]
  split <;> simp

end Registry

/-! ## Sets of identities -/

namespace ModelSet

theorem sortKey_inj {r : Registry} {a b : TypeId} (ha : a ∈ r.ids) (hb : b ∈ r.ids)
    (h : sortKey r a = sortKey r b) : a = b := by
  obtain ⟨d, hd⟩ := Registry.mem_ids.1 ha
  obtain ⟨e, he⟩ := Registry.mem_ids.1 hb
  simp only [sortKey, hd, he] at h
  exact Registry.eq_of_key_eq hd he h

/-- Sets with the same members list them in the same order. -/
theorem sorted_congr {r : Registry} {s t : ModelSet} (hs : ∀ a ∈ s, a ∈ r.ids)
    (h : ∀ a, a ∈ s ↔ a ∈ t) : s.sorted r = t.sorted r :=
  Text.sortByTexts_eq_of_perm ((List.perm_ext_iff_of_nodup s.nodup t.nodup).2 h)
    fun a ha b hb => sortKey_inj (hs a ha) (hs b hb)

end ModelSet

end ApiClient
