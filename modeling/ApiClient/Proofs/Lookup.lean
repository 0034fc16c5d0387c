import ApiClient.Proofs.Registry

/-!
# What look-up finds

`Registry.lookup` searches the candidates of a name in the order of their declaration. What it finds
depends on the declarations alone, since a module declares a name once.

Results:
* `lookup_eq_some_iff`: the declaration that is found is the one of the asking module, or else the
  one of the module that sorts first.
* `lookup_eq_none_iff`: nothing is found if no module declares the name.
* `SameNames.lookup`: the members of types do not matter.
-/

namespace ApiClient.Registry

variable {r : Registry}

/-! ## Candidates -/

theorem mem_types_iff {d : TypeDef} : d ∈ r.types ↔ ∃ id, r.get? id = some d := by
  rw [List.mem_iff_getElem?]
  exact ⟨fun ⟨i, h⟩ => ⟨⟨i⟩, h⟩, fun ⟨id, h⟩ => ⟨id.index, h⟩⟩

theorem mem_candidates {qualified module : String} {id : TypeId} :
    (id, module) ∈ r.candidates qualified ↔
      ∃ d, r.get? id = some d ∧ d.qualifiedName = qualified ∧ d.module = module := by
  rw [candidates, List.mem_filterMap]
  constructor
  · rintro ⟨a, ha, h⟩
    obtain ⟨d, hd⟩ := mem_ids.1 ha
    rw [hd] at h
    simp only [Option.ite_none_right_eq_some, Option.some.injEq, Prod.mk.injEq] at h
    obtain ⟨hname, rfl, hmodule⟩ := h
    exact ⟨d, hd, hname, hmodule⟩
  · rintro ⟨d, hd, hname, hmodule⟩
    exact ⟨id, mem_ids.2 ⟨d, hd⟩, by simp [hd, hname, hmodule]⟩

/-- A module has one candidate at most. -/
theorem eq_of_mem_candidates {qualified module : String} {a b : TypeId}
    (ha : (a, module) ∈ r.candidates qualified) (hb : (b, module) ∈ r.candidates qualified) :
    a = b := by
  obtain ⟨d, hd, hname, hmodule⟩ := mem_candidates.1 ha
  obtain ⟨e, he, hname', hmodule'⟩ := mem_candidates.1 hb
  refine eq_of_key_eq hd he ?_
  rw [Declaration.key, Declaration.key, hname, hname', hmodule, hmodule']

theorem leastModule_eq_none {cs : List (TypeId × String)} (h : leastModule cs = none) :
    cs = [] := by
  cases cs with
  | nil => rfl
  | cons c cs =>
    unfold leastModule at h
    split at h
    · simp at h
    · split at h <;> simp at h

theorem leastModule_eq_some {cs : List (TypeId × String)} {c : TypeId × String}
    (h : leastModule cs = some c) : c ∈ cs ∧ ∀ d ∈ cs, Text.atMost c.2 d.2 = true := by
  induction cs generalizing c with
  | nil => simp [leastModule] at h
  | cons a cs ih =>
    have hrefl (m : String) : Text.atMost m m = true := by simpa using Text.atMost_total m m
    unfold leastModule at h
    split at h
    · rename_i hnone
      obtain rfl := Option.some.inj h
      rw [leastModule_eq_none hnone]
      exact ⟨.head _, fun d hd => by rw [List.mem_singleton.1 hd]; exact hrefl _⟩
    · rename_i d hd
      obtain ⟨hmem, hleast⟩ := ih hd
      split at h
      · rename_i hle
        obtain rfl := Option.some.inj h
        refine ⟨.head _, fun e he => ?_⟩
        rcases List.mem_cons.1 he with rfl | he
        · exact hrefl _
        · exact Text.atMost_trans hle (hleast e he)
      · rename_i hle
        obtain rfl := Option.some.inj h
        refine ⟨.tail _ hmem, fun e he => ?_⟩
        rcases List.mem_cons.1 he with rfl | he
        · exact (Bool.or_eq_true_iff.1 (Text.atMost_total _ _)).resolve_left hle
        · exact hleast e he

/-! ## Look-up -/

/-- Seen from a module, no other declaration of the name goes before this one: it is the module's
own, or the module has none and no module that has one sorts before. -/
def Prevails (r : Registry) (module : String) (d : TypeDef) : Prop :=
  d.module = module ∨ ∀ e ∈ r.types, e.qualifiedName = d.qualifiedName →
    e.module ≠ module ∧ Text.atMost d.module e.module = true

theorem prevails_of_lookup {qualified module : String} {id : TypeId}
    (h : r.lookup qualified module = some id) :
    ∃ d, r.get? id = some d ∧ d.qualifiedName = qualified ∧ r.Prevails module d := by
  unfold lookup at h
  simp only at h
  split at h
  · rename_i c hc
    obtain rfl := Option.some.inj h
    obtain ⟨d, hd, hname, hmodule⟩ := mem_candidates.1 (List.mem_of_find?_eq_some hc)
    have hown := List.find?_some hc
    exact ⟨d, hd, hname, .inl (hmodule.trans (eq_of_beq hown))⟩
  · rename_i hnone
    obtain ⟨c, hc, rfl⟩ := Option.map_eq_some_iff.1 h
    obtain ⟨hmem, hleast⟩ := leastModule_eq_some hc
    obtain ⟨d, hd, hname, hmodule⟩ := mem_candidates.1 hmem
    refine ⟨d, hd, hname, .inr fun e he heq => ?_⟩
    obtain ⟨a, ha⟩ := mem_types_iff.1 he
    have hcandidate : (a, e.module) ∈ r.candidates qualified :=
      mem_candidates.2 ⟨e, ha, heq.trans hname, rfl⟩
    refine ⟨fun hown => List.find?_eq_none.1 hnone _ hcandidate (beq_iff_eq.2 hown), ?_⟩
    rw [hmodule]
    exact hleast _ hcandidate

theorem lookup_of_prevails {module : String} {id : TypeId} {d : TypeDef} (hd : r.get? id = some d)
    (h : r.Prevails module d) : r.lookup d.qualifiedName module = some id := by
  have hcandidate : (id, d.module) ∈ r.candidates d.qualifiedName :=
    mem_candidates.2 ⟨d, hd, rfl, rfl⟩
  unfold lookup
  simp only
  split
  · rename_i c hc
    have hmem := List.mem_of_find?_eq_some hc
    have hown := List.find?_some hc
    have hmodule : c.2 = module := eq_of_beq hown
    obtain ⟨e, he, hname, howner⟩ := mem_candidates.1 hmem
    have hsame : d.module = module := by
      rcases h with h | h
      · exact h
      · exact absurd (howner.trans hmodule) (h e (mem_types_iff.2 ⟨_, he⟩) hname).1
    rw [hsame, ← hmodule] at hcandidate
    rw [eq_of_mem_candidates hmem hcandidate]
  · rename_i hnone
    have hother : d.module ≠ module := fun hown =>
      List.find?_eq_none.1 hnone _ hcandidate (beq_iff_eq.2 hown)
    cases hleast : leastModule (r.candidates d.qualifiedName) with
    | none =>
      rw [leastModule_eq_none hleast] at hcandidate
      simp at hcandidate
    | some c =>
      obtain ⟨hmem, hle⟩ := leastModule_eq_some hleast
      obtain ⟨e, he, hname, hown⟩ := mem_candidates.1 hmem
      have hge := (h.resolve_left hother e (mem_types_iff.2 ⟨_, he⟩) hname).2
      rw [hown] at hge
      rw [Text.atMost_antisymm hge (hle _ hcandidate)] at hcandidate
      rw [Option.map_some, eq_of_mem_candidates hmem hcandidate]

theorem lookup_eq_some_iff {qualified module : String} {id : TypeId} :
    r.lookup qualified module = some id ↔
      ∃ d, r.get? id = some d ∧ d.qualifiedName = qualified ∧ r.Prevails module d := by
  constructor
  · exact prevails_of_lookup
  · rintro ⟨d, hd, rfl, h⟩
    exact lookup_of_prevails hd h

theorem lookup_eq_none_iff {qualified module : String} :
    r.lookup qualified module = none ↔ ∀ d ∈ r.types, d.qualifiedName ≠ qualified := by
  constructor
  · intro h d hd hname
    obtain ⟨id, hid⟩ := mem_types_iff.1 hd
    have hcandidate : (id, d.module) ∈ r.candidates qualified :=
      mem_candidates.2 ⟨d, hid, hname, rfl⟩
    unfold lookup at h
    simp only at h
    split at h
    · simp at h
    · rw [Option.map_eq_none_iff] at h
      rw [leastModule_eq_none h] at hcandidate
      simp at hcandidate
  · intro h
    cases hlookup : r.lookup qualified module with
    | none => rfl
    | some id =>
      obtain ⟨d, hd, hname, _⟩ := prevails_of_lookup hlookup
      exact absurd hname (h d (mem_types_iff.2 ⟨id, hd⟩))

/-! ## What look-up depends on -/

/-- The types of both registries have the same qualified names and modules in the same places. -/
def SameNames (r r' : Registry) : Prop :=
  (r.types.map fun d => d.key) = r'.types.map fun d => d.key

theorem SameNames.trans {r' r'' : Registry} (h : r.SameNames r') (h' : r'.SameNames r'') :
    r.SameNames r'' :=
  Eq.trans h h'

theorem sameNames_attach (r : Registry) (id : TypeId) (c : Attachment) :
    (r.attach id c).SameNames r :=
  keys_modify r.types id.index c

theorem sameNames_update (r : Registry) (id : TypeId) (f : Body → Body) :
    (r.update id f).SameNames r := by
  rw [update_eq_attach]
  exact r.sameNames_attach id (.ofBody f)

namespace SameNames

variable {r' : Registry} (h : r.SameNames r')
include h

theorem get?_key (id : TypeId) :
    (r.get? id).map (fun d => d.key) = (r'.get? id).map fun d => d.key := by
  rw [get?, get?, ← List.getElem?_map, ← List.getElem?_map]
  exact congrArg (·[id.index]?) h

theorem ids : r.ids = r'.ids := by
  have hlength := congrArg List.length h
  rw [List.length_map, List.length_map] at hlength
  rw [Registry.ids, Registry.ids, hlength]

theorem candidates (qualified : String) : r.candidates qualified = r'.candidates qualified := by
  rw [Registry.candidates, Registry.candidates, h.ids]
  refine List.filterMap_congr fun id _ => ?_
  have hkey := h.get?_key id
  cases hd : r.get? id with
  | none =>
    rw [hd, Option.map_none, eq_comm, Option.map_eq_none_iff] at hkey
    rw [hkey]
  | some d =>
    rw [hd, Option.map_some, eq_comm, Option.map_eq_some_iff] at hkey
    obtain ⟨d', hd', he⟩ := hkey
    obtain ⟨hname, hmodule⟩ := Prod.mk.inj he
    simp only [hd', hname, hmodule]

theorem lookup (qualified module : String) :
    r.lookup qualified module = r'.lookup qualified module := by
  rw [Registry.lookup, Registry.lookup, h.candidates]

end SameNames

end ApiClient.Registry
