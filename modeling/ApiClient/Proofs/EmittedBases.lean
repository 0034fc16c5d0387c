import ApiClient.Proofs.Views

/-!
# Properties along emitted classes

A class extends its base if that is a model, and otherwise declares what it inherits. Either way a
reader who follows the emitted classes finds each property with the type of its nearest declaration.

* `emittedChain`: a class with the classes that it extends, up to a number of steps.
* `emittedType?`: the type of a name in the first of these classes that declares it.

Results:
* `find?_mappedProperties`: of a name the first property is emitted.
* `ancestors_isPrefix`: the ancestors of the base go on as those of the type do.
* `emittedType?_of_isFirst`: the nearest declaration is what the emitted classes declare.
* `emittedType?_eq`: the emitted classes keep all properties with their types.
-/

namespace ApiClient.Registry

variable {r : Registry} {id base : TypeId} {as : List TypeId} {d : TypeDef} {p : PropertyDef}
  {q : MappedProperty} {n : ℕ} {name : String}

/-! ## Emitted classes -/

/-- The class and the classes that it extends in turn, at most so many of them. -/
def emittedChain (r : Registry) : ℕ → TypeId → List TypeId
  | 0, id => [id]
  | n + 1, id => id :: (r.modelBase? id).elim [] (emittedChain r n)

/-- The type with which the class that is emitted for a type declares a name. -/
def declaredType? (r : Registry) (name : String) (id : TypeId) : Option MappedType :=
  (r.get? id).bind fun d => ((r.view id d).declared.find? fun q => q.name = name).map (·.type)

/-- The type of a name in the first class of the chain that declares the name. -/
def emittedType? (r : Registry) (n : ℕ) (id : TypeId) (name : String) : Option MappedType :=
  (r.emittedChain n id).findSome? (r.declaredType? name)

/-! ## Properties of a name -/

/-- Of the properties of a name the first one is found, if it has a type. -/
theorem find?_mappedProperties {ps : List PropertyDef} (h : IsFirst PropertyDef.name ps p)
    (hq : r.mappedProperty? p = some q) :
    (r.mappedProperties ps).find? (fun q => q.name = p.name) = some q := by
  have hname : ∀ {p q}, r.mappedProperty? p = some q → q.name = p.name :=
    fun hq => (mappedProperty?_eq_some.1 hq).2.1
  obtain ⟨bs, cs, rfl, hfirst⟩ := h
  have hmapped : IsFirst MappedProperty.name ((bs ++ p :: cs).filterMap r.mappedProperty?) q := by
    refine isFirst_filterMap.2 ⟨bs, p, cs, rfl, hq, fun b hb c hc he => hfirst ?_⟩
    rw [hname hc, hname hq] at he
    exact List.mem_map.2 ⟨b, hb, he⟩
  rw [mappedProperties, Text.find?_sortByText, ← hname hq]
  exact hmapped.find?_eq

theorem find?_mappedProperties_eq_none {ps : List PropertyDef}
    (h : name ∉ ps.map PropertyDef.name) :
    (r.mappedProperties ps).find? (fun q => q.name = name) = none := by
  refine List.find?_eq_none.2 fun q hq hname => h ?_
  obtain ⟨p, hp, hpq⟩ := mem_mappedProperties.1 hq
  rw [← of_decide_eq_true hname, (mappedProperty?_eq_some.1 hpq).2.1]
  exact List.mem_map_of_mem hp

/-- What is declared first along a part of the chain is so along the whole chain. -/
theorem isFirst_of_isPrefix {bs : List TypeId} (hbs : as <+: bs)
    (h : IsFirst PropertyDef.name (as.flatMap r.ownProperties) p) :
    IsFirst PropertyDef.name (bs.flatMap r.ownProperties) p := by
  obtain ⟨cs, rfl⟩ := hbs
  rw [List.flatMap_append]
  exact isFirst_append.2 (.inl h)

theorem view_declared_of_modelBase? (hd : r.get? id = some d) (h : r.modelBase? id = some base) :
    (r.view id d).declared = r.mappedProperties (r.ownProperties id) := by
  have hbase : (r.view id d).base.isSome = true := by
    rw [view_base_isSome, h]
    rfl
  change (if (r.view id d).base.isSome then _ else _) = _
  rw [if_pos hbase, ownProperties, hd]

theorem view_declared_of_modelBase?_eq_none (h : r.modelBase? id = none) :
    (r.view id d).declared = r.mappedProperties (r.allProperties id) := by
  have hbase : ¬ (r.view id d).base.isSome = true := by
    rw [view_base_isSome, h]
    decide
  exact if_neg hbase

/-- A class that extends no other one declares all properties. -/
theorem declaredType?_of_isFirst (hd : r.get? id = some d) (hbase : r.modelBase? id = none)
    (h : IsFirst PropertyDef.name ((id :: r.ancestors id).flatMap r.ownProperties) p)
    (hq : r.mappedProperty? p = some q) : r.declaredType? p.name id = some q.type := by
  have hp : p ∈ r.allProperties id := mem_distinctBy_nil_iff.2 h
  have hfirst : IsFirst PropertyDef.name (r.allProperties id) p :=
    (forall_isFirst_iff (map_distinctBy_nodup _ _ _).of_map).2 (map_distinctBy_nodup _ _ _) p hp
  rw [declaredType?, hd, Option.bind_some, view_declared_of_modelBase?_eq_none hbase,
    find?_mappedProperties hfirst hq, Option.map_some]

/-- Every class declares the properties that the type has itself. -/
theorem declaredType?_of_isFirst_own (hd : r.get? id = some d)
    (h : IsFirst PropertyDef.name (r.ownProperties id) p) (hq : r.mappedProperty? p = some q) :
    r.declaredType? p.name id = some q.type := by
  cases hbase : r.modelBase? id with
  | none =>
    refine declaredType?_of_isFirst hd hbase ?_ hq
    rw [List.flatMap_cons]
    exact isFirst_append.2 (.inl h)
  | some base =>
    rw [declaredType?, hd, Option.bind_some, view_declared_of_modelBase? hd hbase,
      find?_mappedProperties h hq, Option.map_some]

/-- A class that extends another one declares nothing that the type has not itself. -/
theorem declaredType?_eq_none (hd : r.get? id = some d) (hbase : r.modelBase? id = some base)
    (h : name ∉ (r.ownProperties id).map PropertyDef.name) : r.declaredType? name id = none := by
  rw [declaredType?, hd, Option.bind_some, view_declared_of_modelBase? hd hbase,
    find?_mappedProperties_eq_none h, Option.map_none]

/-! ## Bases -/

/-- A chain that has seen less goes on at least as far. -/
theorem chain_isPrefix {fuel fuel' : ℕ} {seen seen' : List TypeId} (hfuel : fuel ≤ fuel')
    (hseen : seen' ⊆ seen) : r.chain fuel seen id <+: r.chain fuel' seen' id := by
  induction fuel generalizing id fuel' seen seen' with
  | zero => exact List.nil_prefix
  | succ fuel ih =>
    obtain ⟨fuel', rfl⟩ : ∃ n, fuel' = n + 1 := ⟨fuel' - 1, by omega⟩
    unfold chain
    cases r.baseId? id with
    | none => exact List.nil_prefix
    | some base =>
      by_cases hbase : base ∈ seen
      · simp only [if_pos hbase]
        exact List.nil_prefix
      · simp only [if_neg hbase, if_neg fun h => hbase (hseen h)]
        exact (List.prefix_cons_inj base).2
          (ih (Nat.le_of_succ_le_succ hfuel) (List.cons_subset_cons base hseen))

/-- The ancestors of the base go on as those of the type do, and further if the chain is a
cycle. -/
theorem ancestors_isPrefix {a : TypeId} (h : a :: as <+: r.ancestors id) :
    r.baseId? id = some a ∧ as <+: r.ancestors a := by
  unfold ancestors chain at h
  cases hbase : r.baseId? id with
  | none => simp [hbase] at h
  | some base =>
    simp only [hbase] at h
    split at h
    · simp at h
    · obtain ⟨rfl, h⟩ := List.cons_prefix_cons.1 h
      refine ⟨rfl, h.trans (chain_isPrefix (Nat.le_succ _) ?_)⟩
      intro b hb
      rw [List.mem_singleton.1 hb]
      exact .head _

/-! ## The nearest declaration -/

/-- The invariant of the walk: nothing before the current class declares the name. The walk ends
where the name is declared, or earlier at a class that declares all it inherits. -/
theorem emittedType?_of_isFirst (hd : r.get? id = some d) (has : as <+: r.ancestors id)
    (h : IsFirst PropertyDef.name ((id :: as).flatMap r.ownProperties) p)
    (hq : r.mappedProperty? p = some q) :
    r.emittedType? as.length id p.name = some q.type := by
  induction as generalizing id d with
  | nil =>
    have hown : IsFirst PropertyDef.name (r.ownProperties id) p := by
      rw [List.flatMap_singleton] at h
      exact h
    rw [List.length_nil, emittedType?, emittedChain, List.findSome?_cons,
      declaredType?_of_isFirst_own hd hown hq]
  | cons a as ih =>
    rw [List.length_cons, emittedType?, emittedChain, List.findSome?_cons]
    have hcases := h
    rw [List.flatMap_cons, isFirst_append] at hcases
    rcases hcases with hown | ⟨hinherited, hrest⟩
    · rw [declaredType?_of_isFirst_own hd hown hq]
    · cases hbase : r.modelBase? id with
      | none =>
        have hall := isFirst_of_isPrefix ((List.prefix_cons_inj id).2 has) h
        rw [declaredType?_of_isFirst hd hbase hall hq]
      | some base =>
        rw [declaredType?_eq_none hd hbase hinherited]
        obtain ⟨hbaseId, d', hd'⟩ := exists_of_modelBase? hbase
        obtain ⟨ha, has'⟩ := ancestors_isPrefix has
        obtain rfl : base = a := Option.some.inj (hbaseId.symm.trans ha)
        exact ih hd' has' hrest

/-- A reader who follows the emitted classes, no further than there are ancestors, finds each
property of the view with its type, and this is the type of the nearest declaration of the name. -/
theorem emittedType?_eq (hd : r.get? id = some d) (hq : q ∈ (r.view id d).all) :
    r.emittedType? (r.ancestors id).length id q.name = some q.type ∧
      ∃ p, IsFirst PropertyDef.name ((id :: r.ancestors id).flatMap r.ownProperties) p ∧
        p.name = q.name ∧ r.mapProperty p = q.type := by
  obtain ⟨p, hp, hpq⟩ := mem_view_all.1 hq
  have hfirst := mem_distinctBy_nil_iff.1 hp
  obtain ⟨_, hname, htype, _⟩ := mappedProperty?_eq_some.1 hpq
  rw [hname]
  exact ⟨emittedType?_of_isFirst hd List.prefix_rfl hfirst hpq, p, hfirst, rfl, htype.symm⟩

/-- A structure without markers whose base is the first class of the chain. -/
def part : TypeDef :=
  ⟨⟨"Shop", "", "Part", .structType⟩, { Body.empty with
    base := some (.declared ⟨0⟩ [])
    properties := [⟨"Size", .external "int" [], .empty, none⟩] }⟩

/-- A class that extends `Gadget`. -/
def widget : TypeDef :=
  ⟨⟨"Shop", "", "Widget", .classType⟩, { Body.empty with
    base := some (.declared ⟨1⟩ [])
    properties := [⟨"Name", .external "string" [], .empty, none⟩] }⟩

/-- A cyclic chain of two classes and a structure, which the second class cannot extend. -/
def gadgets : Registry where
  types := [widget,
    ⟨⟨"Shop", "", "Gadget", .classType⟩, { Body.empty with base := some (.declared ⟨2⟩ []) }⟩, part]
  nodup := by decide

theorem emittedType?_eq_widget :
    let size : MappedProperty := ⟨"Size", .primitive .number, false⟩
    gadgets.get? ⟨0⟩ = some widget ∧ size ∈ (gadgets.view ⟨0⟩ widget).all ∧
      gadgets.ancestors ⟨0⟩ = [⟨1⟩, ⟨2⟩] ∧ gadgets.emittedChain 2 ⟨0⟩ = [⟨0⟩, ⟨1⟩] ∧
      gadgets.emittedType? 2 ⟨0⟩ "Size" = some (.primitive .number) := by
  intro size
  have hall : size ∈ (gadgets.view ⟨0⟩ widget).all := by
    exact mem_view_all.2 ⟨_, .tail _ (.head _), by decide +kernel⟩
  exact ⟨rfl, hall, by decide +kernel, by decide +kernel, (emittedType?_eq rfl hall).1⟩

end ApiClient.Registry
