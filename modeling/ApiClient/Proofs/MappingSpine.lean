import ApiClient.Proofs.References
import Mathlib.Logic.Function.Iterate

/-!
# Spines of references

A reference is mapped by looking through its wrappers: arrays and collections of one element add an
array each, other types of one argument add nothing. The leaf is what is left when no wrapper
remains, and it alone decides what the arrays hold.

The specification does not mention the mapping: `Step` takes off one wrapper, `Spine` takes off all
of them and counts the arrays, `leafType` is the type of a leaf.

Results:
* `spine_unique`, `exists_spine`: every reference has exactly one spine.
* `map_of_step`, `map_of_spine`: the mapped type is that of what is left, below the arrays of what
  was taken off; exclusion passes through them.
* `map_of_isLeaf`: the mapped type of a leaf.
* `exists_follows`: the mapped type of every reference, told by its spine.
-/

namespace ApiClient

/-! ## Specification -/

/-- Families whose only argument stands for the type. -/
def ExternalKind.isTransparent : ExternalKind → Bool
  | .nullable | .task | .void | .object | .other => true
  | .boolean | .number | .text | .date | .sequence | .map => false

namespace Registry

/-- A wrapper is taken off a reference. The number is that of the arrays that it adds. -/
inductive Step (r : Registry) : TypeRef → Nat → TypeRef → Prop
  | array {t : TypeRef} : r.Step (.array t) 1 t
  | sequence {type : ExternalType} {t : TypeRef} : type.kind = .sequence →
    r.Step (.external type [t]) 1 t
  | external {type : ExternalType} {t : TypeRef} : type.kind.isTransparent = true →
    r.Step (.external type [t]) 0 t
  | declared {id : TypeId} {t : TypeRef} : r.isIgnored id = false → r.isModelOrEnum id = false →
    r.Step (.declared id [t]) 0 t

/-- No wrapper can be taken off. -/
def IsLeaf (r : Registry) (t : TypeRef) : Prop :=
  ∀ n u, ¬ r.Step t n u

/-- All wrappers are taken off one after the other, down to a leaf. The number is that of the arrays
that they add together. -/
inductive Spine (r : Registry) : TypeRef → Nat → TypeRef → Prop
  | leaf {t : TypeRef} : r.IsLeaf t → r.Spine t 0 t
  | step {t u leaf : TypeRef} {n m : Nat} : r.Step t n u → r.Spine u m leaf →
    r.Spine t (n + m) leaf

/-- The reference is to a declared type that is ignored. -/
def RefersToIgnored (r : Registry) (t : TypeRef) : Prop :=
  ∃ id args, t = .declared id args ∧ r.isIgnored id = true

/-- The type of a leaf that is not ignored: a model or enumeration stands for itself, a library type
for its family. Arrays are no leaves. -/
def leafType (r : Registry) (utc : Bool) : TypeRef → MappedType
  | .declared id _ =>
    match r.get? id with
    | some d => if r.isModelOrEnum id then .model id d.name else .any
    | none => .any
  | .external type _ =>
    match type.kind with
    | .boolean => .primitive .boolean
    | .number => .primitive .number
    | .text => .primitive .string
    | .date => .date utc
    | _ => .any
  | .array _ => .any

/-- The mapped type of a reference is told by these arrays and this leaf. -/
structure Follows (r : Registry) (t : TypeRef) (arrays : Nat) (leaf : TypeRef) : Prop where
  /-- The reference has this spine and no other. -/
  spine : ∀ n u, r.Spine t n u ↔ n = arrays ∧ u = leaf
  excluded : ∀ utc, r.map utc t = .excluded ↔ r.RefersToIgnored leaf
  layers : ¬ r.RefersToIgnored leaf → ∀ utc,
    r.map utc t = MappedType.array^[arrays] (r.leafType utc leaf)
  /-- In a property its own marker decides on universal time. -/
  property : ∀ p : PropertyDef, p.type = t →
    r.mapProperty p = r.map (p.markers.contains .utcDate) t
  /-- No array holds an excluded type, at any depth. -/
  not_below : ∀ utc n, r.map utc t ≠ MappedType.array^[n + 1] .excluded
  /-- Universal time makes a difference to dates alone. -/
  utc : ∀ a b, r.map a t = r.map b t ∨
    ∃ n, r.map a t = MappedType.array^[n] (.date a) ∧ r.map b t = MappedType.array^[n] (.date b)

/-! ## Spines -/

variable {r : Registry} {t u v : TypeRef} {n m : Nat} {utc : Bool}

theorem step_unique (h : r.Step t n u) (h' : r.Step t m v) : n = m ∧ u = v := by
  cases h with
  | array =>
    cases h'
    exact ⟨rfl, rfl⟩
  | sequence hsequence =>
    cases h' with
    | sequence => exact ⟨rfl, rfl⟩
    | external htransparent =>
      rw [hsequence] at htransparent
      contradiction
  | external htransparent =>
    cases h' with
    | sequence hsequence =>
      rw [hsequence] at htransparent
      contradiction
    | external => exact ⟨rfl, rfl⟩
  | declared =>
    cases h'
    exact ⟨rfl, rfl⟩

theorem spine_unique (h : r.Spine t n u) (h' : r.Spine t m v) : n = m ∧ u = v := by
  induction h generalizing m with
  | leaf hleaf =>
    cases h' with
    | leaf => exact ⟨rfl, rfl⟩
    | step hstep => exact absurd hstep (hleaf _ _)
  | step hstep _ ih =>
    cases h' with
    | leaf hleaf => exact absurd hstep (hleaf _ _)
    | step hstep' hspine' =>
      obtain ⟨rfl, rfl⟩ := step_unique hstep hstep'
      obtain ⟨rfl, rfl⟩ := ih hspine'
      exact ⟨rfl, rfl⟩

/-- The argument that a step leads to has a spine, so the whole has one. -/
theorem exists_spine_of_step (h : ∀ n u, r.Step t n u → ∃ m leaf, r.Spine u m leaf) :
    ∃ m leaf, r.Spine t m leaf := by
  by_cases hleaf : r.IsLeaf t
  · exact ⟨0, t, .leaf hleaf⟩
  · obtain ⟨n, u, hstep⟩ : ∃ n u, r.Step t n u := by
      simpa [IsLeaf] using hleaf
    obtain ⟨m, leaf, hspine⟩ := h n u hstep
    exact ⟨n + m, leaf, .step hstep hspine⟩

theorem exists_spine (r : Registry) (t : TypeRef) : ∃ n leaf, r.Spine t n leaf := by
  induction t using TypeRef.induction with
  | declared id args ih =>
    apply exists_spine_of_step
    rintro _ u ⟨⟩
    exact ih u (.head _)
  | external type args ih =>
    apply exists_spine_of_step
    rintro _ u (_ | _)
    all_goals exact ih u (.head _)
  | array t ih =>
    apply exists_spine_of_step
    rintro _ _ ⟨⟩
    exact ih

end Registry

/-! ## Arrays -/

namespace MappedType

variable {t : MappedType}

theorem iterate_arrayOf_excluded (n : Nat) : arrayOf^[n] excluded = excluded :=
  Function.iterate_fixed rfl n

theorem arrayOf_of_ne_excluded (h : t ≠ excluded) : arrayOf t = array t := by
  cases t with
  | excluded => exact absurd rfl h
  | _ => rfl

theorem iterate_arrayOf (h : t ≠ excluded) (n : Nat) :
    arrayOf^[n] t = array^[n] t ∧ array^[n] t ≠ excluded := by
  induction n with
  | zero => exact ⟨rfl, h⟩
  | succ n ih =>
    obtain ⟨heq, hne⟩ := ih
    rw [Function.iterate_succ_apply', Function.iterate_succ_apply', heq]
    exact ⟨arrayOf_of_ne_excluded hne, by simp⟩

/-- What lies below arrays is told by the arrays and what they hold. -/
theorem element_iterate_array (n : Nat) : (array^[n] t).element = t.element := by
  induction n with
  | zero => rfl
  | succ n ih =>
    rw [Function.iterate_succ_apply']
    exact ih

end MappedType

namespace Registry

variable {r : Registry} {t u leaf : TypeRef} {n : Nat} {utc : Bool}

/-! ## Mapped types along a spine -/

theorem map_of_step (h : r.Step t n u) : r.map utc t = MappedType.arrayOf^[n] (r.map utc u) := by
  cases h with
  | array => rw [map]; rfl
  | sequence hsequence => rw [map, hsequence]; rfl
  | @external type _ htransparent =>
    rw [map]
    cases hkind : type.kind with
    | nullable | task | void | object | other => rfl
    | boolean | number | text | date | sequence | map =>
      rw [hkind] at htransparent
      contradiction
  | declared hignored hmodel => rw [map, hignored, hmodel]; rfl

/-- The arrays of the steps are put around what the leaf is mapped to. -/
theorem map_of_spine (h : r.Spine t n leaf) :
    r.map utc t = MappedType.arrayOf^[n] (r.map utc leaf) := by
  induction h with
  | leaf => rfl
  | step hstep _ ih => rw [map_of_step hstep, ih, Function.iterate_add_apply]

theorem isLeaf_of_spine (h : r.Spine t n leaf) : r.IsLeaf leaf := by
  induction h with
  | leaf hleaf => exact hleaf
  | step _ _ ih => exact ih

/-- Where an only argument would be seen through, a leaf has none or several. -/
theorem mapOnly_of_ne_singleton {args : List TypeRef} (h : ∀ u, args ≠ [u]) :
    r.mapOnly utc args = .any := by
  match args with
  | [] => rfl
  | [u] => exact absurd rfl (h u)
  | _ :: _ :: _ => rfl

theorem mapElement_of_ne_singleton {args : List TypeRef} (h : ∀ u, args ≠ [u]) :
    r.mapElement utc args = .any := by
  match args with
  | [] => rfl
  | [u] => exact absurd rfl (h u)
  | _ :: _ :: _ => rfl

theorem map_of_isLeaf_external {type : ExternalType} {args : List TypeRef}
    (h : r.IsLeaf (.external type args)) :
    r.map utc (.external type args) = r.leafType utc (.external type args) := by
  rw [map, leafType]
  cases hkind : type.kind with
  | boolean | number | text | date | map => rfl
  | sequence =>
    refine mapElement_of_ne_singleton ?_
    rintro u rfl
    exact h 1 u (.sequence hkind)
  | nullable | task | void | object | other =>
    refine mapOnly_of_ne_singleton ?_
    rintro u rfl
    exact h 0 u (.external (by rw [hkind]; rfl))

theorem map_of_isLeaf_declared {id : TypeId} {args : List TypeRef}
    (h : r.IsLeaf (.declared id args)) (hignored : r.isIgnored id = false) :
    r.map utc (.declared id args) = r.leafType utc (.declared id args) := by
  rw [map, if_neg (by simp [hignored]), leafType]
  cases hmodel : r.isModelOrEnum id with
  | true =>
    -- Only what is declared is a model.
    cases hget : r.get? id with
    | none => simp [isModelOrEnum, isModel, isEnum, hget] at hmodel
    | some d => rfl
  | false =>
    have honly : r.mapOnly utc args = .any := by
      refine mapOnly_of_ne_singleton ?_
      rintro u rfl
      exact h 0 u (.declared hignored hmodel)
    rw [if_neg (by simp), honly]
    cases r.get? id <;> rfl

theorem map_of_refersToIgnored (h : r.RefersToIgnored leaf) : r.map utc leaf = .excluded := by
  obtain ⟨id, args, rfl, hignored⟩ := h
  rw [map, if_pos hignored]

/-- A leaf that is not ignored is mapped to its own type. -/
theorem map_of_isLeaf (h : r.IsLeaf leaf) (hignored : ¬ r.RefersToIgnored leaf) :
    r.map utc leaf = r.leafType utc leaf := by
  cases leaf with
  | declared id args =>
    refine map_of_isLeaf_declared h (Bool.eq_false_iff.2 fun htrue => ?_)
    exact hignored ⟨id, args, rfl, htrue⟩
  | external type args => exact map_of_isLeaf_external h
  | array t => exact absurd .array (h 1 t)

/-! ## Types of leaves -/

theorem element_leafType_ne_excluded (r : Registry) (utc : Bool) (leaf : TypeRef) :
    (r.leafType utc leaf).element ≠ .excluded := by
  unfold leafType
  split
  · split
    · split <;> simp [MappedType.element]
    · simp [MappedType.element]
  · split <;> simp [MappedType.element]
  · simp [MappedType.element]

theorem leafType_eq_or_date (r : Registry) (leaf : TypeRef) (a b : Bool) :
    r.leafType a leaf = r.leafType b leaf ∨
      r.leafType a leaf = .date a ∧ r.leafType b leaf = .date b := by
  cases leaf with
  | declared id args => exact .inl rfl
  | external type args =>
    rw [leafType, leafType]
    cases type.kind with
    | date => exact .inr ⟨rfl, rfl⟩
    | boolean | number | text | sequence | map | nullable | task | void | object | other =>
      exact .inl rfl
  | array t => exact .inl rfl

/-! ## The mapping -/

/-- The type of a leaf that is not ignored is put below the arrays of the spine as it is. -/
theorem map_of_not_refersToIgnored (h : r.Spine t n leaf) (hignored : ¬ r.RefersToIgnored leaf) :
    r.map utc t = MappedType.array^[n] (r.leafType utc leaf) ∧ r.map utc t ≠ .excluded := by
  have hleaf : r.map utc leaf = r.leafType utc leaf := map_of_isLeaf (isLeaf_of_spine h) hignored
  have hne : r.leafType utc leaf ≠ .excluded := by
    intro he
    apply element_leafType_ne_excluded r utc leaf
    rw [he]
    rfl
  obtain ⟨heq, hlayers⟩ := MappedType.iterate_arrayOf hne n
  rw [map_of_spine h, hleaf, heq]
  exact ⟨rfl, hlayers⟩

theorem map_eq_excluded_iff (h : r.Spine t n leaf) :
    r.map utc t = .excluded ↔ r.RefersToIgnored leaf := by
  constructor
  · intro hexcluded
    by_contra hignored
    exact (map_of_not_refersToIgnored h hignored).2 hexcluded
  · intro hignored
    rw [map_of_spine h, map_of_refersToIgnored hignored, MappedType.iterate_arrayOf_excluded]

theorem map_ne_iterate_array_excluded (r : Registry) (utc : Bool) (t : TypeRef) (k : Nat) :
    r.map utc t ≠ MappedType.array^[k + 1] .excluded := by
  obtain ⟨n, leaf, h⟩ := r.exists_spine t
  intro hbelow
  by_cases hignored : r.RefersToIgnored leaf
  · rw [(map_eq_excluded_iff h).2 hignored, Function.iterate_succ_apply'] at hbelow
    contradiction
  · rw [(map_of_not_refersToIgnored h hignored).1] at hbelow
    apply element_leafType_ne_excluded r utc leaf
    have helement := congrArg MappedType.element hbelow
    rw [MappedType.element_iterate_array, MappedType.element_iterate_array] at helement
    exact helement

theorem map_eq_or_date (r : Registry) (t : TypeRef) (a b : Bool) :
    r.map a t = r.map b t ∨ ∃ n, r.map a t = MappedType.array^[n] (.date a) ∧
      r.map b t = MappedType.array^[n] (.date b) := by
  obtain ⟨n, leaf, h⟩ := r.exists_spine t
  by_cases hignored : r.RefersToIgnored leaf
  · left
    rw [(map_eq_excluded_iff h).2 hignored, (map_eq_excluded_iff h).2 hignored]
  · rw [(map_of_not_refersToIgnored h hignored).1, (map_of_not_refersToIgnored h hignored).1]
    rcases r.leafType_eq_or_date leaf a b with heq | ⟨ha, hb⟩
    · exact .inl (by rw [heq])
    · exact .inr ⟨n, by rw [ha], by rw [hb]⟩

/-- Every reference has one spine, and is mapped to the type of its leaf below the arrays of the
spine, unless the leaf is ignored: then, and only then, is the whole excluded. -/
theorem exists_follows (r : Registry) (t : TypeRef) : ∃ n leaf, r.Follows t n leaf := by
  obtain ⟨n, leaf, h⟩ := r.exists_spine t
  refine ⟨n, leaf, ?_⟩
  exact {
    spine := by
      intro m v
      constructor
      · intro h'
        exact spine_unique h' h
      · rintro ⟨rfl, rfl⟩
        exact h
    excluded := fun utc => map_eq_excluded_iff h
    layers := fun hignored utc => (map_of_not_refersToIgnored h hignored).1
    property := by
      rintro p rfl
      rfl
    not_below := fun utc k => r.map_ne_iterate_array_excluded utc t k
    utc := r.map_eq_or_date t }

end Registry

end ApiClient
