import ApiClient.Proofs.Expansion
import ApiClient.Proofs.LibraryTypes

/-!
# Expansion of wrapped models

Whether a marked parameter is expanded is decided by what its type is mapped to, so wrappers are
seen through. What it is expanded to is decided by the reference as it is written: a library wrapper
around a model declares nothing and is kept whole, and a declared wrapper brings its own properties.

Two parameters are the same to clients if no method can tell them apart, whatever else it declares.

Results:
* `expands?_eq_declaredId?`: a marked parameter of a model is expanded as the type that it names.
* `expandParameters_of_expands?`: an expanded parameter, among the others of its method.
* `followsModel_iff`: a marked parameter of a model gives way to what the model itself would give
  way to, exactly if it names a declared type that stands for the same parameters.
* `not_followsModel_optionalQuery`: an optional model does not.
-/

namespace ApiClient.Registry

variable {r : Registry} {p : ParameterDef} {id owner : TypeId}

/-! ## Specification -/

/-- The parameter with the model itself for its type. -/
def ofModel (p : ParameterDef) (id : TypeId) : ParameterDef :=
  { p with type := .declared id [] }

/-- The parameter is marked to be expanded, and its type is mapped to the model. -/
structure IsModelParameter (r : Registry) (p : ParameterDef) (id : TypeId) : Prop where
  marked : p.markers.contains .expandInline = true
  mapped : ∃ name, r.map false p.type = .model id name

/-- Wherever the parameter stands, clients see what they would see of one of the model itself. -/
def FollowsModel (r : Registry) (p : ParameterDef) (id : TypeId) : Prop :=
  ∀ before after, r.expandParameters (before ++ p :: after) =
    r.expandParameters (before ++ ofModel p id :: after)

/-- The parameters that stand for one that is expanded as the type, if there are no others. -/
def standIns (r : Registry) (id : TypeId) : List Parameter :=
  distinctBy Parameter.name [] (r.propertyParameters id)

/-! ## Expanded parameters of a model -/

theorem expands?_eq_declaredId? (h : r.IsModelParameter p id) :
    r.expands? p = p.type.declaredId? := by
  obtain ⟨name, hmap⟩ := h.mapped
  unfold expands?
  rw [h.marked, hmap]
  rfl

/-- The model itself is mapped to itself, so it is expanded as itself. -/
theorem expands?_ofModel (h : r.IsModelParameter p id) : r.expands? (ofModel p id) = some id := by
  obtain ⟨name, hmap⟩ := h.mapped
  have hmodel : (r.map false p.type).model? = some (id, name) := by
    rw [hmap]
    rfl
  have hcandidate : r.isCandidate id = true := isCandidate_of_model? hmodel
  obtain ⟨hkind, hignored⟩ := isCandidate_iff.1 hcandidate
  have hparameter : r.IsModelParameter (ofModel p id) id := by
    refine ⟨h.marked, (r.get? id).elim "" (·.name), ?_⟩
    change r.map false (.declared id []) = _
    simp [map, hignored, hkind]
  exact expands?_eq_declaredId? hparameter

/-- The properties come in after all written out parameters and after the properties of the
parameters before. -/
theorem expandParameters_of_expands? (h : r.expands? p = some owner)
    (before after : List ParameterDef) :
    r.expandParameters (before ++ p :: after) =
      distinctBy Parameter.name []
        ((r.plainParameters (before ++ after) ++ r.inlinedParameters before) ++
          (r.propertyParameters owner ++ r.inlinedParameters after)) := by
  have hplain : r.plainParameters (before ++ p :: after) = r.plainParameters (before ++ after) := by
    simp [plainParameters, h]
  have hinlined : r.inlinedParameters (before ++ p :: after) =
      r.inlinedParameters before ++ (r.propertyParameters owner ++ r.inlinedParameters after) := by
    simp [inlinedParameters, h]
  change distinctBy Parameter.name []
    (r.plainParameters (before ++ p :: after) ++ r.inlinedParameters (before ++ p :: after)) = _
  rw [hplain, hinlined, List.append_assoc]

theorem expandParameters_singleton (h : r.expands? p = some owner) :
    r.expandParameters [p] = r.standIns owner := by
  have hexpand := expandParameters_of_expands? h [] []
  simpa [standIns, plainParameters, inlinedParameters] using hexpand

/-! ## Expansion by the model -/

theorem followsModel_of_standIns (h : r.IsModelParameter p id)
    (howner : p.type.declaredId? = some owner) (hsame : r.standIns owner = r.standIns id) :
    r.FollowsModel p id := by
  intro before after
  have hexpands : r.expands? p = some owner := (expands?_eq_declaredId? h).trans howner
  rw [expandParameters_of_expands? hexpands, expandParameters_of_expands? (expands?_ofModel h)]
  exact distinctBy_append_congr hsame _ _ _

/-- A written out parameter wins over a later one of its name, whereas the model itself would give
way to that one. -/
theorem not_followsModel_of_plain (h : r.IsModelParameter p id) (hplain : r.expands? p = none) :
    ¬ r.FollowsModel p id := by
  intro hfollows
  -- The rival has the same name, and a type that is mapped to no model.
  let rival : ParameterDef := ⟨p.name, .external "" [], .empty⟩
  have hkept : r.expands? rival = none := by simp [rival, expands?]
  have hrival : r.plainParameters [ofModel p id, rival] = [⟨p.name, .external "" []⟩] := by
    simp [plainParameters, expands?_ofModel h, hkept, rival]
  have hfirst : IsFirst Parameter.name (r.plainParameters [p, rival]) ⟨p.name, p.type⟩ :=
    isFirst_plainParameters.2 ⟨[], p, [rival], rfl, hplain, rfl, by simp⟩
  have hmem : (⟨p.name, p.type⟩ : Parameter) ∈ r.expandParameters [ofModel p id, rival] := by
    rw [← List.nil_append [ofModel p id, rival], ← hfollows [] [rival]]
    exact mem_expandParameters.2 (.inl hfirst)
  rcases mem_expandParameters.1 hmem with hwritten | ⟨hname, _⟩
  · rw [hrival] at hwritten
    have htype : p.type = .external "" [] :=
      congrArg Parameter.type (List.mem_singleton.1 hwritten.mem)
    obtain ⟨name, hmap⟩ := h.mapped
    rw [htype] at hmap
    contradiction
  · rw [hrival] at hname
    exact hname (.head _)

/-- A marked parameter of a model gives way to the same parameters as the model itself, exactly if
the reference is written with a declared type for which the same parameters stand; one that is
written with a library wrapper never does. -/
theorem followsModel_iff (h : r.IsModelParameter p id) :
    r.FollowsModel p id ↔
      ∃ owner, p.type.declaredId? = some owner ∧ r.standIns owner = r.standIns id := by
  constructor
  · intro hfollows
    cases howner : p.type.declaredId? with
    | none =>
      have hplain : r.expands? p = none := (expands?_eq_declaredId? h).trans howner
      exact absurd hfollows (not_followsModel_of_plain h hplain)
    | some owner =>
      have hexpands : r.expands? p = some owner := (expands?_eq_declaredId? h).trans howner
      refine ⟨owner, rfl, ?_⟩
      calc r.standIns owner
        _ = r.expandParameters [p] := (expandParameters_singleton hexpands).symm
        _ = r.expandParameters [ofModel p id] := hfollows [] []
        _ = r.standIns id := expandParameters_singleton (expands?_ofModel h)
  · rintro ⟨owner, howner, hsame⟩
    exact followsModel_of_standIns h howner hsame

/-- A class to search by, and a structure around one that declares nothing itself but derives from
it. -/
def searches : Registry where
  types := [
    ⟨⟨"Shop", "", "Query", .classType⟩, { Body.empty with
      properties := [⟨"Term", .external "string" [], .empty, none⟩] }⟩,
    ⟨⟨"Shop", "", "Page", .structType⟩, { Body.empty with base := some (.declared ⟨0⟩ []) }⟩]
  nodup := by decide

/-- A parameter that is to be expanded. -/
def query (t : TypeRef) : ParameterDef :=
  ⟨"query", t, .ofList [.expandInline]⟩

theorem isModelParameter_query {t : TypeRef}
    (h : searches.map false t = .model ⟨0⟩ "Query") :
    searches.IsModelParameter (query t) ⟨0⟩ :=
  ⟨rfl, "Query", h⟩

/-- The parameter is written with the structure around the class. -/
def pageQuery : ParameterDef :=
  query (.declared ⟨1⟩ [.declared ⟨0⟩ []])

theorem followsModel_iff_page :
    searches.IsModelParameter pageQuery ⟨0⟩ ∧ searches.FollowsModel pageQuery ⟨0⟩ := by
  have hpage : searches.IsModelParameter pageQuery ⟨0⟩ := isModelParameter_query (by decide +kernel)
  exact ⟨hpage, (followsModel_iff hpage).2 ⟨⟨1⟩, rfl, rfl⟩⟩

/-- The parameter is optional. -/
def optionalQuery : ParameterDef :=
  query (.external TypeExpr.nullableName [.declared ⟨0⟩ []])

/-- An optional query is mapped to the class, but it is kept whole. -/
theorem not_followsModel_optionalQuery :
    searches.IsModelParameter optionalQuery ⟨0⟩ ∧ ¬ searches.FollowsModel optionalQuery ⟨0⟩ := by
  have hoptional : searches.IsModelParameter optionalQuery ⟨0⟩ :=
    isModelParameter_query (by decide +kernel)
  exact ⟨hoptional, not_followsModel_of_plain hoptional (by decide +kernel)⟩

end ApiClient.Registry
