import ApiClient.Proofs.Declaring.NameIndex

/-!
# Registries after any calls

Declarations come in any order, some of them are rejected, and members are attached at any place
between them. Identities, names and look-up stay in order all the same.

Results:
* `lookup_run_eq_none_iff`, `lookup_run_eq_some_iff`: what look-up finds, told by the declarations
  that were made.
* `run_consistent`: all of it, for all calls.
-/

namespace ApiClient.Registry

variable {calls : List Call}

/-! ## Names -/

theorem declares_iff {qualified module : String} : Declares calls qualified module ↔
    ∃ d ∈ (run .empty calls).types, d.module = module ∧ d.qualifiedName = qualified := by
  rw [← mem_keys_run, List.mem_map]
  simp only [Declaration.key, Prod.mk.injEq, and_comm]

theorem sortKey_of_get? {r : Registry} {id : TypeId} {d : TypeDef} (h : r.get? id = some d) :
    ModelSet.sortKey r id = (d.qualifiedName, d.module) := by
  rw [ModelSet.sortKey, h]
  rfl

/-- Members of one registry are listed in strict order. -/
theorem sorted_pairwise_lt {r : Registry} {s : ModelSet} (hs : ∀ a ∈ s, a ∈ r.ids) :
    (s.sorted r).Pairwise fun a b =>
      (ModelSet.sortKey r a).1 < (ModelSet.sortKey r b).1 ∨
        (ModelSet.sortKey r a).1 = (ModelSet.sortKey r b).1 ∧
          (ModelSet.sortKey r a).2 < (ModelSet.sortKey r b).2 := by
  refine Text.sortByTexts_pairwise_lt (List.Nodup.map_on (fun a ha b hb he => ?_) s.nodup)
  exact ModelSet.sortKey_inj (hs a ha) (hs b hb) he

/-! ## Look-up -/

theorem lookup_run_eq_none_iff {qualified module : String} :
    (run .empty calls).lookup qualified module = none ↔ ∀ m, ¬ Declares calls qualified m := by
  rw [lookup_eq_none_iff]
  constructor
  · intro h m hm
    obtain ⟨d, hd, _, hname⟩ := declares_iff.1 hm
    exact h d hd hname
  · exact fun h d hd hname => h d.module (declares_iff.2 ⟨d, hd, rfl, hname⟩)

/-- The type of the module itself is found, or else that of the least module that declares the
name. -/
theorem lookup_run_eq_some_iff {qualified module : String} {id : TypeId} :
    (run .empty calls).lookup qualified module = some id ↔
      ∃ d, (run .empty calls).get? id = some d ∧ d.qualifiedName = qualified ∧
        (d.module = module ∨ ¬ Declares calls qualified module ∧
          ∀ m, Declares calls qualified m → d.module ≤ m) := by
  rw [lookup_eq_some_iff]
  refine exists_congr fun d => and_congr_right fun _ => and_congr_right fun hname =>
    or_congr_right ?_
  constructor
  · intro h
    refine ⟨fun hown => ?_, fun m hm => ?_⟩
    · obtain ⟨e, he, hmodule, hsame⟩ := declares_iff.1 hown
      exact (h e he (hsame.trans hname.symm)).1 hmodule
    · obtain ⟨e, he, rfl, hsame⟩ := declares_iff.1 hm
      exact Text.atMost_iff.1 (h e he (hsame.trans hname.symm)).2
  · rintro ⟨hother, hleast⟩ e he hsame
    have hdeclares : Declares calls qualified e.module :=
      declares_iff.2 ⟨e, he, rfl, hsame.trans hname⟩
    exact ⟨fun hown => hother (hown ▸ hdeclares), Text.atMost_iff.2 (hleast _ hdeclares)⟩

theorem lookup_run_congr {calls' : List Call}
    (h : ∀ q m, Declares calls q m ↔ Declares calls' q m) (qualified module : String) :
    ((run .empty calls).lookup qualified module).map (ModelSet.sortKey (run .empty calls)) =
      ((run .empty calls').lookup qualified module).map
        (ModelSet.sortKey (run .empty calls')) := by
  cases hlookup : (run .empty calls).lookup qualified module with
  | none =>
    have hnone : (run .empty calls').lookup qualified module = none :=
      lookup_run_eq_none_iff.2 fun m hm => lookup_run_eq_none_iff.1 hlookup m ((h _ _).2 hm)
    rw [hnone]
    rfl
  | some id =>
    obtain ⟨d, hd, rfl, hmodule⟩ := lookup_run_eq_some_iff.1 hlookup
    have hdeclares : Declares calls d.qualifiedName d.module :=
      declares_iff.2 ⟨d, mem_types_iff.2 ⟨id, hd⟩, rfl, rfl⟩
    -- The other registry has a type of the same name and module, which prevails there as well.
    obtain ⟨d', hd', hmodule', hname'⟩ := declares_iff.1 ((h _ _).1 hdeclares)
    obtain ⟨id', hid'⟩ := mem_types_iff.1 hd'
    have hlookup' : (run .empty calls').lookup d.qualifiedName module = some id' := by
      refine lookup_run_eq_some_iff.2 ⟨d', hid', hname', ?_⟩
      rw [hmodule', ← h]
      exact hmodule.imp_right fun ⟨hother, hleast⟩ => ⟨hother, fun m hm => hleast m ((h _ _).2 hm)⟩
    rw [hlookup', Option.map_some, Option.map_some, sortKey_of_get? hd, sortKey_of_get? hid',
      hname', hmodule']

/-! ## Consistency -/

/-- A registry that calls have led to is in order. -/
structure Consistent (calls : List Call) (r : Registry) : Prop where
  /-- Identities are given in the order of acceptance, from zero on and without a gap. -/
  identities : ((accepted .empty calls).map fun p => p.2.index) = List.range r.types.length
  /-- An identity leads to the type that was declared with it. -/
  declared : ∀ d id, (d, id) ∈ accepted .empty calls → ∃ t, r.get? id = some t ∧
    t.names = d.names ∧ ((∀ a, Call.attach id a ∉ calls) → t = d.bare)
  /-- A declaration is rejected exactly if its module declares the qualified name already. -/
  rejected : ∀ d, (∃ e, r.declare d = .error e) ↔
    ∃ t ∈ r.types, t.module = d.module ∧ t.qualifiedName = d.qualifiedName
  /-- A rejected declaration changes nothing. -/
  unchanged : ∀ d e, r.declare d = .error e → run .empty (calls ++ [.declare d]) = r
  /-- Qualified name and module tell types apart. -/
  distinct : ∀ a b t u, r.get? a = some t → r.get? b = some u →
    t.qualifiedName = u.qualifiedName → t.module = u.module → a = b
  /-- Sets are listed in strict order. -/
  untied : ∀ s : ModelSet, (∀ a ∈ s, a ∈ r.ids) → (s.sorted r).Pairwise fun a b =>
    (ModelSet.sortKey r a).1 < (ModelSet.sortKey r b).1 ∨
      (ModelSet.sortKey r a).1 = (ModelSet.sortKey r b).1 ∧
        (ModelSet.sortKey r a).2 < (ModelSet.sortKey r b).2
  /-- Sets of the same members are listed in the same way. -/
  sorted : ∀ s t : ModelSet, (∀ a ∈ s, a ∈ r.ids) → (∀ a, a ∈ s ↔ a ∈ t) →
    s.sorted r = t.sorted r
  /-- A name is not found exactly if no module declares it. -/
  absent : ∀ q m, r.lookup q m = none ↔ ∀ m', ¬ Declares calls q m'
  /-- A name is found in the module itself, or else in the least module that declares it. -/
  found : ∀ q m id, r.lookup q m = some id ↔ ∃ t, r.get? id = some t ∧ t.qualifiedName = q ∧
    (t.module = m ∨ ¬ Declares calls q m ∧ ∀ m', Declares calls q m' → t.module ≤ m')
  /-- The order of the calls does not matter for what is found. -/
  reordered : ∀ calls' : List Call, calls'.Perm calls → ∀ q m,
    (r.lookup q m).map (ModelSet.sortKey r) =
      ((run .empty calls').lookup q m).map (ModelSet.sortKey (run .empty calls'))
  /-- An index that goes through the calls has filed exactly the types of each name. -/
  index : (Index.empty.run calls).Agrees r
  /-- With the index the same declarations are rejected, and the same identities are given. -/
  index_register : ∀ d, ((Index.register d).run.run (Index.empty.run calls)).1 =
    ((register d).run.run r).1
  /-- A rejected declaration leaves both as they were, types and what is filed. -/
  index_unchanged : ∀ d e, ((register d).run.run r).1 = .error e →
    (register d).run.run r = (.error e, r) ∧
      (Index.register d).run.run (Index.empty.run calls) = (.error e, Index.empty.run calls)
  /-- With the index the same types are found. -/
  index_lookup : ∀ q m, (Index.empty.run calls).lookup q m = r.lookup q m

/-- Any calls on the empty registry leave it in order. -/
theorem run_consistent (calls : List Call) : Consistent calls (run .empty calls) where
  identities := map_index_accepted_empty calls
  declared d id h := by
    obtain ⟨t, ht, hnames⟩ := exists_get?_run h
    refine ⟨t, ht, hnames, fun hcalls => ?_⟩
    rw [get?_run_of_accepted h hcalls, Option.some.injEq] at ht
    exact ht.symm
  rejected d := by
    rw [declare_eq_error_iff, List.mem_map]
    simp only [Declaration.key, Prod.mk.injEq, and_comm]
  unchanged d e h := by
    rw [run_append]
    exact after_of_declare_eq_error h
  distinct a b t u ha hb hname hmodule := by
    refine eq_of_key_eq ha hb ?_
    rw [Declaration.key, Declaration.key, hname, hmodule]
  untied s hs := sorted_pairwise_lt hs
  sorted s t hs h := ModelSet.sorted_congr hs h
  absent _ _ := lookup_run_eq_none_iff
  found _ _ _ := lookup_run_eq_some_iff
  reordered calls' h := by
    refine lookup_run_congr fun q m => ?_
    simp only [Declares, h.mem_iff]
  index := Index.agrees_empty.run calls
  index_register := (Index.agrees_empty.run calls).register
  index_unchanged d e h := by
    by_cases hmem : d.key ∈ (run .empty calls).types.map fun d => d.key
    · rw [register_of_mem hmem] at h ⊢
      rw [(Index.agrees_empty.run calls).register_of_mem hmem, ← h]
      exact ⟨rfl, rfl⟩
    · rw [register_of_not_mem hmem] at h
      cases h
  index_lookup := (Index.agrees_empty.run calls).lookup

end ApiClient.Registry
