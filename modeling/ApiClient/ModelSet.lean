import ApiClient.Registry

/-!
# Sets of models

A model set holds identities of declared types, each once. `ModelSet.sorted` lists it by qualified
name and module, so that what is generated does not depend on the order in which types were found.
-/

namespace ApiClient

/-- A set of declared types. -/
structure ModelSet where
  toList : List TypeId
  nodup : toList.Nodup

namespace ModelSet

/-- The set without members. -/
def empty : ModelSet := ⟨[], by simp⟩

instance : Membership TypeId ModelSet := ⟨fun s id => id ∈ s.toList⟩

instance (id : TypeId) (s : ModelSet) : Decidable (id ∈ s) :=
  inferInstanceAs (Decidable (id ∈ s.toList))

/-- Membership. -/
def contains (s : ModelSet) (id : TypeId) : Bool :=
  decide (id ∈ s)

/-- The number of members. -/
def size (s : ModelSet) : Nat :=
  s.toList.length

/-- The set with one more member; a member stays where it is (`insert` of `ModelSet`). -/
def insert (s : ModelSet) (id : TypeId) : ModelSet :=
  if h : id ∈ s.toList then s
  else ⟨s.toList ++ [id], by
    rw [List.nodup_append]
    exact ⟨s.nodup, by simp, fun a ha b hb he => h (List.mem_singleton.1 hb ▸ he ▸ ha)⟩⟩

/-- The set with more members (`extend`). -/
def insertAll (s : ModelSet) (ids : List TypeId) : ModelSet :=
  ids.foldl insert s

/-- The set of the listed types. -/
def ofList (ids : List TypeId) : ModelSet :=
  empty.insertAll ids

/-- What the members are sorted by. -/
def sortKey (r : Registry) (id : TypeId) : String × String :=
  match r.get? id with
  | some d => d.key
  | none => ("", "")

/-- The members by qualified name and module (`sorted`). -/
def sorted (s : ModelSet) (r : Registry) : List TypeId :=
  Text.sortByTexts (sortKey r) s.toList

/-! ## Members after each operation -/

@[simp] theorem not_mem_empty (id : TypeId) : id ∉ empty :=
  List.not_mem_nil (a := id)

@[simp] theorem mem_insert {s : ModelSet} {a b : TypeId} : a ∈ s.insert b ↔ a = b ∨ a ∈ s := by
  change a ∈ (s.insert b).toList ↔ a = b ∨ a ∈ s.toList
  unfold insert
  split <;> simp <;> grind

@[simp] theorem mem_insertAll {s : ModelSet} {ids : List TypeId} {a : TypeId} :
    a ∈ s.insertAll ids ↔ a ∈ ids ∨ a ∈ s := by
  induction ids generalizing s with
  | nil => simp [insertAll]
  | cons b ids ih =>
    change a ∈ (s.insert b).insertAll ids ↔ _
    rw [ih, mem_insert, List.mem_cons]
    grind

@[simp] theorem mem_ofList {ids : List TypeId} {a : TypeId} : a ∈ ofList ids ↔ a ∈ ids := by
  simp [ofList]

/-- More members make no difference if they are members already. -/
theorem insertAll_eq_self {s : ModelSet} {ids : List TypeId} (h : ∀ a ∈ ids, a ∈ s) :
    s.insertAll ids = s := by
  induction ids with
  | nil => rfl
  | cons b ids ih =>
    have hb : s.insert b = s := dif_pos (h b (.head _))
    change (s.insert b).insertAll ids = s
    rw [hb, ih fun a ha => h a (.tail _ ha)]

theorem mem_sorted {s : ModelSet} {r : Registry} {a : TypeId} : a ∈ s.sorted r ↔ a ∈ s :=
  (Text.sortByTexts_perm _ _).mem_iff

end ModelSet

end ApiClient
