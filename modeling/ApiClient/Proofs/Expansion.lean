import ApiClient.Controllers
import ApiClient.Proofs.FirstPlaces

/-!
# Expanded parameters

A method's parameters that are marked to be expanded give way to the properties of their types. What
is written out comes first and wins, wherever it stands in the method; names of properties begin
with a small letter, so they may collide with each other too.

Parameters of the method have their places in it. A property that stands for one has the place of
that parameter, then its own among the properties of the type.

Results:
* `mem_map_plainParameters`, `mem_map_inlinedParameters`: the names in both parts.
* `listsFirst_plainParameters`, `listsFirst_inlinedParameters`: what is left of both parts.
* `mem_expandParameters`: the parameters that are left.
* `isExpansion_expandParameters`: `expandParameters` is the first part and then the second one.
-/

namespace ApiClient.Registry

variable {r : Registry} {ps : List ParameterDef} {p : ParameterDef} {q : Parameter} {name : String}
  {i : ℕ} {place : ℕ ×ₗ ℕ}

/-! ## Specification -/

/-- The parameters of a method that are written out. -/
def plainParameters (r : Registry) (ps : List ParameterDef) : List Parameter :=
  ps.filterMap fun p => if (r.expands? p).isNone then some ⟨p.name, p.type⟩ else none

/-- The properties that stand for the other ones. -/
def inlinedParameters (r : Registry) (ps : List ParameterDef) : List Parameter :=
  ps.flatMap fun p => (r.expands? p).elim [] r.propertyParameters

/-- The parameter stands in the method at this place, and is written out. -/
def PlainAt (r : Registry) (ps : List ParameterDef) (i : ℕ) (q : Parameter) : Prop :=
  ∃ p, ps[i]? = some p ∧ r.expands? p = none ∧ q = ⟨p.name, p.type⟩

/-- The parameter stands for a property at the second place, of the type of a parameter that stands
at the first place and is expanded. -/
def InlinedAt (r : Registry) (ps : List ParameterDef) (place : ℕ ×ₗ ℕ) (q : Parameter) : Prop :=
  ∃ p, ps[(ofLex place).1]? = some p ∧ ∃ id, r.expands? p = some id ∧
    ∃ property, (r.allProperties id)[(ofLex place).2]? = some property ∧
      q = ⟨Text.camelize property.name, property.type⟩

/-- The parameters that clients see, told by those of the method. -/
structure IsExpansion (r : Registry) (ps : List ParameterDef) (qs : List Parameter) : Prop where
  /-- No name comes twice. -/
  nodup : (qs.map Parameter.name).Nodup
  /-- No written out parameter is lost, but for others of its name. -/
  plain : ∀ p ∈ ps, r.expands? p = none → p.name ∈ qs.map Parameter.name
  /-- No property of an expanded type is lost, but for others of its name. -/
  inlined : ∀ p ∈ ps, ∀ id, r.expands? p = some id → ∀ property ∈ r.allProperties id,
    Text.camelize property.name ∈ qs.map Parameter.name
  /-- Of the written out parameters the first of each name come first. Then come properties, the
  first of each name that no parameter is written out under. Both parts are in order. -/
  parts : ∃ plain inlined, qs = plain ++ inlined ∧
    ListsFirst Parameter.name (r.PlainAt ps) plain ∧
      ListsFirst Parameter.name (fun place q => r.InlinedAt ps place q ∧
        ∀ p ∈ ps, r.expands? p = none → p.name ≠ q.name) inlined

/-! ## Names -/

theorem plainParameter_eq_some {p : ParameterDef} {q : Parameter} :
    (if (r.expands? p).isNone then some (⟨p.name, p.type⟩ : Parameter) else none) = some q ↔
      r.expands? p = none ∧ q = ⟨p.name, p.type⟩ := by
  rw [Option.ite_none_right_eq_some, Option.isNone_iff_eq_none, Option.some.injEq, eq_comm (a := q)]

theorem mem_map_plainParameters :
    name ∈ (r.plainParameters ps).map Parameter.name ↔
      ∃ p ∈ ps, r.expands? p = none ∧ p.name = name := by
  simp only [plainParameters, List.mem_map, List.mem_filterMap, plainParameter_eq_some]
  constructor
  · rintro ⟨_, ⟨p, hp, hnone, rfl⟩, hname⟩
    exact ⟨p, hp, hnone, hname⟩
  · rintro ⟨p, hp, hnone, hname⟩
    exact ⟨_, ⟨p, hp, hnone, rfl⟩, hname⟩

theorem mem_map_inlinedParameters :
    name ∈ (r.inlinedParameters ps).map Parameter.name ↔
      ∃ p ∈ ps, ∃ id, r.expands? p = some id ∧
        ∃ property ∈ r.allProperties id, Text.camelize property.name = name := by
  rw [inlinedParameters, List.map_flatMap, List.mem_flatMap]
  refine exists_congr fun p => and_congr_right fun _ => ?_
  cases r.expands? p with
  | none => simp
  | some id => simp [propertyParameters]

/-! ## Parts -/

theorem listsFirst_plainParameters (r : Registry) (ps : List ParameterDef) :
    ListsFirst Parameter.name (r.PlainAt ps)
      (distinctBy Parameter.name [] (r.plainParameters ps)) := by
  rw [plainParameters, ← map_snd_enumerateSome]
  refine (listsFirst_distinctBy _ (enumerateSome_pairwise _ ps) []).congr fun i q => ?_
  rw [and_iff_left List.not_mem_nil, mem_enumerateSome]
  simp only [plainParameter_eq_some, PlainAt]

/-- The first written out parameter of a name. -/
theorem isFirst_plainParameters :
    IsFirst Parameter.name (r.plainParameters ps) q ↔
      ∃ as p bs, ps = as ++ p :: bs ∧ r.expands? p = none ∧ q = ⟨p.name, p.type⟩ ∧
        ∀ a ∈ as, r.expands? a = none → a.name ≠ p.name := by
  rw [plainParameters, isFirst_filterMap]
  constructor
  · rintro ⟨as, p, bs, hps, hp, has⟩
    obtain ⟨hplain, rfl⟩ := plainParameter_eq_some.1 hp
    refine ⟨as, p, bs, hps, hplain, rfl, fun a ha hexpands => ?_⟩
    exact has a ha _ (plainParameter_eq_some.2 ⟨hexpands, rfl⟩)
  · rintro ⟨as, p, bs, hps, hp, rfl, has⟩
    refine ⟨as, p, bs, hps, plainParameter_eq_some.2 ⟨hp, rfl⟩, fun a ha b hb => ?_⟩
    obtain ⟨hplain, rfl⟩ := plainParameter_eq_some.1 hb
    exact has a ha hplain

/-- The properties that stand for a parameter. -/
theorem getElem?_elim_propertyParameters :
    ((r.expands? p).elim [] r.propertyParameters)[i]? = some q ↔
      ∃ id, r.expands? p = some id ∧ ∃ property, (r.allProperties id)[i]? = some property ∧
        q = ⟨Text.camelize property.name, property.type⟩ := by
  cases r.expands? p with
  | none => simp
  | some id =>
    simp only [Option.elim_some, propertyParameters, List.getElem?_map, Option.map_eq_some_iff,
      Option.some.injEq, exists_eq_left', eq_comm (a := q)]

theorem listsFirst_inlinedParameters (r : Registry) (ps : List ParameterDef) (seen : List String) :
    ListsFirst Parameter.name (fun place q => r.InlinedAt ps place q ∧ q.name ∉ seen)
      (distinctBy Parameter.name seen (r.inlinedParameters ps)) := by
  rw [inlinedParameters, List.flatMap_def, ← map_snd_enumerate]
  refine (listsFirst_distinctBy _ (enumerate_pairwise _) seen).congr fun place q => ?_
  refine and_congr_left fun _ => ?_
  rw [mem_enumerate]
  simp only [List.getElem?_map, Option.map_eq_some_iff, exists_exists_and_eq_and,
    getElem?_elim_propertyParameters, InlinedAt]

/-! ## Expansion -/

theorem expandParameters_eq (r : Registry) (ps : List ParameterDef) :
    r.expandParameters ps = distinctBy Parameter.name [] (r.plainParameters ps) ++
      distinctBy Parameter.name ((r.plainParameters ps).map Parameter.name)
        (r.inlinedParameters ps) :=
  distinctBy_append _ _ _ _

/-- There are the first written out parameter of each name, and of the other names the first property
that comes in. -/
theorem mem_expandParameters :
    q ∈ r.expandParameters ps ↔
      IsFirst Parameter.name (r.plainParameters ps) q ∨
        q.name ∉ (r.plainParameters ps).map Parameter.name ∧
          IsFirst Parameter.name (r.inlinedParameters ps) q := by
  change q ∈ distinctBy Parameter.name [] (r.plainParameters ps ++ r.inlinedParameters ps) ↔ _
  rw [mem_distinctBy_nil_iff, isFirst_append]

theorem mem_map_expandParameters :
    name ∈ (r.expandParameters ps).map Parameter.name ↔
      name ∈ (r.plainParameters ps).map Parameter.name ∨
        name ∈ (r.inlinedParameters ps).map Parameter.name := by
  change name ∈ (distinctBy Parameter.name [] (r.plainParameters ps ++ _)).map Parameter.name ↔ _
  rw [mem_map_distinctBy, and_iff_left List.not_mem_nil, List.map_append, List.mem_append]
  rfl

/-- For all parameters of a method, marked or not and in any order, `expandParameters` gives each
name once, and of each name what wins. -/
theorem isExpansion_expandParameters (r : Registry) (ps : List ParameterDef) :
    r.IsExpansion ps (r.expandParameters ps) where
  nodup := map_distinctBy_nodup _ _ _
  plain p hp hnone :=
    mem_map_expandParameters.2 (.inl (mem_map_plainParameters.2 ⟨p, hp, hnone, rfl⟩))
  inlined p hp id hid property hproperty :=
    mem_map_expandParameters.2
      (.inr (mem_map_inlinedParameters.2 ⟨p, hp, id, hid, property, hproperty, rfl⟩))
  parts := by
    refine ⟨_, _, r.expandParameters_eq ps, r.listsFirst_plainParameters ps, ?_⟩
    refine (r.listsFirst_inlinedParameters ps _).congr fun place q => and_congr_right fun _ => ?_
    rw [mem_map_plainParameters]
    simp only [not_exists, not_and, ne_eq]

end ApiClient.Registry
