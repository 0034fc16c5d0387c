import ApiClient.Proofs.Discovery

/-!
# The closure over derived types

Discovery adds to the models of operations what derives from them in their own modules. It goes
through these models once, and not through what it adds: that would add nothing more.

Results:
* `mem_derivedTypes_trans`: what derives from a derived type derives from the type itself, unless
  the chain is a cycle and has come back to it.
* `derivedClosure_derivedClosure`: a second round changes nothing.
* `closesOver_derivedClosure`: the closure over derived types is a closure operator.
-/

namespace ApiClient.Registry

variable {r : Registry} {a b c : TypeId}

/-! ## Specification -/

/-- The type is a model or enumeration and not ignored, it descends from the other type, and both
are declared in one module. -/
structure IsDerivedFrom (r : Registry) (id ancestor : TypeId) : Prop where
  modelOrEnum : r.isModelOrEnum id = true
  notIgnored : r.isIgnored id = false
  descends : r.Descends id ancestor
  sameModule : r.moduleOf id = r.moduleOf ancestor

/-- The function is a closure operator on sets of candidates, and adds exactly what derives from
their members. -/
structure ClosesOver (r : Registry) (close : ModelSet → ModelSet) : Prop where
  candidate : ∀ s : ModelSet, (∀ id ∈ s, r.isCandidate id = true) →
    ∀ id ∈ close s, r.isCandidate id = true
  extensive : ∀ s : ModelSet, ∀ id ∈ s, id ∈ close s
  monotone : ∀ s t : ModelSet, (∀ id ∈ s, id ∈ t) → ∀ id ∈ close s, id ∈ close t
  idempotent : ∀ s, close (close s) = close s
  adds : ∀ s id, id ∈ close s ∧ id ∉ s ↔ id ∉ s ∧ ∃ member ∈ s, r.IsDerivedFrom id member

/-! ## Derived types -/

theorem mem_derivedTypes_iff : a ∈ r.derivedTypes b ↔ r.IsDerivedFrom a b := by
  rw [mem_derivedTypes, isCandidate_iff]
  constructor
  · rintro ⟨hdescends, hmodule, hmodel, hignored⟩
    exact ⟨hmodel, hignored, hdescends, hmodule⟩
  · rintro ⟨hmodel, hignored, hdescends, hmodule⟩
    exact ⟨hdescends, hmodule, hmodel, hignored⟩

theorem mem_derivedTypes_trans (hab : a ∈ r.derivedTypes b) (hbc : b ∈ r.derivedTypes c)
    (hac : a ≠ c) : a ∈ r.derivedTypes c := by
  obtain ⟨hab, hmodule, hcandidate⟩ := mem_derivedTypes.1 hab
  obtain ⟨hbc, hmodule', _⟩ := mem_derivedTypes.1 hbc
  exact mem_derivedTypes.2 ⟨hab.trans hbc hac, hmodule.trans hmodule', hcandidate⟩

/-! ## The closure -/

/-- What a second round would add is there: it derives from a member of the first set as well, or is
itself one. -/
theorem derivedClosure_derivedClosure (r : Registry) (s : ModelSet) :
    r.derivedClosure (r.derivedClosure s) = r.derivedClosure s := by
  refine ModelSet.insertAll_eq_self fun a ha => ?_
  obtain ⟨b, hb, hab⟩ := List.mem_flatMap.1 ha
  rcases mem_derivedClosure.1 hb with ⟨c, hc, hbc⟩ | hb
  · by_cases hac : a = c
    · exact mem_derivedClosure.2 (.inr (hac ▸ hc))
    · exact mem_derivedClosure.2 (.inl ⟨c, hc, mem_derivedTypes_trans hab hbc hac⟩)
  · exact mem_derivedClosure.2 (.inl ⟨b, hb, hab⟩)

/-- For every registry, with cyclic base chains too, the closure over derived types is a closure
operator. -/
theorem closesOver_derivedClosure (r : Registry) : r.ClosesOver r.derivedClosure where
  candidate s hs id hid := by
    rcases mem_derivedClosure.1 hid with ⟨member, _, hderived⟩ | hid
    · exact (mem_derivedTypes.1 hderived).2.2
    · exact hs id hid
  extensive s id hid := mem_derivedClosure.2 (.inr hid)
  monotone s t hst id hid := by
    rcases mem_derivedClosure.1 hid with ⟨member, hmember, hderived⟩ | hid
    · exact mem_derivedClosure.2 (.inl ⟨member, hst member hmember, hderived⟩)
    · exact mem_derivedClosure.2 (.inr (hst id hid))
  idempotent := r.derivedClosure_derivedClosure
  adds s id := by
    simp only [mem_derivedClosure, mem_derivedTypes_iff]
    constructor
    · rintro ⟨hadded, hnew⟩
      exact ⟨hnew, hadded.resolve_right hnew⟩
    · rintro ⟨hnew, hadded⟩
      exact ⟨.inl hadded, hnew⟩

end ApiClient.Registry
