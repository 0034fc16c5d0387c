import ApiClient.Generation
import ApiClient.Proofs.Rendering

/-!
# Contexts that supply their templates

A template names values of a context, and inside a repetition values of its items. A context
supplies a template if all of them are there: those of both branches of every choice and those for
each item of every repetition, whatever the context holds. A value that is not set must be there
too, as null.

* `IsSupplied`: the context has all that parts name.

Results:
* `exists_renderParts_of_isSupplied`: parts have a text in every context that supplies them.
* `isSupplied_angularClass` and its neighbours: the contexts of classes, interfaces, services,
  enumerations and lists of exports supply their templates.
-/

namespace ApiClient

open Json

namespace Template

/-! ## Specification -/

mutual
/-- The context has all that a part names, in whichever branch. -/
def Part.IsSupplied : Part → Value → Prop
  | .text _, _ => True
  | .value path, context => (find? path context).isSome = true
  | .choice path yes no, context =>
    (find? path context).isSome = true ∧ IsSupplied yes context ∧ IsSupplied no context
  | .each path body otherwise, context =>
    (∃ items, (find? path context).bind items? = some items ∧
      ∀ item ∈ items, IsSupplied body item) ∧ IsSuppliedElse otherwise context
  | .within path body otherwise, context =>
    (∃ v, find? path context = some v ∧ (isTrue v = true ∨ otherwise.isSome = true) ∧
      IsSupplied body v) ∧ IsSuppliedElse otherwise context
/-- The context has all that the parts for nothing name, if there are any. -/
def IsSuppliedElse : Option (List Part) → Value → Prop
  | some parts, context => IsSupplied parts context
  | none, _ => True
/-- The context has all that parts name. -/
def IsSupplied : List Part → Value → Prop
  | [], _ => True
  | p :: ps, context => p.IsSupplied context ∧ IsSupplied ps context
end

variable {context : Value}

/-! ## Texts -/

mutual
/-- A part has a text in every context that supplies it. -/
theorem exists_renderPart_of_isSupplied : ∀ (p : Part) (context : Value), p.IsSupplied context →
    ∃ text, renderPart p context = .ok text
  | .text s, _, _ => ⟨s, rfl⟩
  | .value path, context, h => by
    obtain ⟨v, hv⟩ := Option.isSome_iff_exists.1 h
    exact ⟨display v, by rw [renderPart, hv]⟩
  | .choice path yes no, context, ⟨_, hyes, hno⟩ => by
    rw [renderPart]
    split
    · exact exists_renderParts_of_isSupplied yes context hyes
    · exact exists_renderParts_of_isSupplied no context hno
  | .each path body otherwise, context, ⟨⟨items, hitems, hbody⟩, helse⟩ => by
    rw [renderPart, hitems]
    match items, hbody with
    | [], _ => exact exists_renderElse_of_isSupplied otherwise _ context helse (.inl ⟨_, rfl⟩)
    | item :: items, hbody =>
      exact exists_concat_iff.2 fun v hv => exists_renderParts_of_isSupplied body v (hbody v hv)
  | .within path body otherwise, context, ⟨⟨v, hv, htrue, hbody⟩, helse⟩ => by
    rw [renderPart, hv]
    dsimp only
    split
    · exact exists_renderParts_of_isSupplied body v hbody
    · rename_i hfalse
      exact exists_renderElse_of_isSupplied otherwise _ context helse
        (.inr (htrue.resolve_left hfalse))
/-- The parts for nothing have a text, or something stands for them. -/
theorem exists_renderElse_of_isSupplied : ∀ (otherwise : Option (List Part))
    (absent : Except Fault String) (context : Value), IsSuppliedElse otherwise context →
    (∃ text, absent = .ok text) ∨ otherwise.isSome = true →
    ∃ text, renderElse otherwise absent context = .ok text
  | some parts, _, context, h, _ => exists_renderParts_of_isSupplied parts context h
  | none, _, _, _, .inl htext => htext
/-- Parts have a text in every context that supplies them. -/
theorem exists_renderParts_of_isSupplied : ∀ (ps : List Part) (context : Value),
    IsSupplied ps context → ∃ text, renderParts ps context = .ok text
  | [], _, _ => ⟨"", rfl⟩
  | p :: ps, context, ⟨hp, hps⟩ => by
    obtain ⟨a, ha⟩ := exists_renderPart_of_isSupplied p context hp
    obtain ⟨b, hb⟩ := exists_renderParts_of_isSupplied ps context hps
    exact ⟨a ++ b, renderParts_cons_eq_ok.2 ⟨a, b, ha, hb, rfl⟩⟩
end

/-! ## Parts -/

theorem isSupplied_append_iff {ps qs : List Part} :
    IsSupplied (ps ++ qs) context ↔ IsSupplied ps context ∧ IsSupplied qs context := by
  induction ps with
  | nil => simp [IsSupplied]
  | cons p ps ih => rw [List.cons_append, IsSupplied, IsSupplied, ih, and_assoc]

@[simp] theorem isSupplied_text (s : String) : (Part.text s).IsSupplied context :=
  trivial

@[simp] theorem isSupplied_line (s : String) : (line s).IsSupplied context :=
  trivial

/-- A context itself is always there. -/
@[simp] theorem isSupplied_value_nil : (Part.value []).IsSupplied context :=
  rfl

@[simp] theorem isSupplied_key_iff {name : String} :
    (key name).IsSupplied context ↔ (find? [name] context).isSome = true :=
  Iff.rfl

theorem isSupplied_choice_iff {path : Path} {yes no : List Part} :
    (Part.choice path yes no).IsSupplied context ↔
      (find? path context).isSome = true ∧ IsSupplied yes context ∧ IsSupplied no context :=
  Iff.rfl

theorem isSupplied_given_iff {name : String} {parts : List Part} :
    (given name parts).IsSupplied context ↔
      (find? [name] context).isSome = true ∧ IsSupplied parts context := by
  rw [given, isSupplied_choice_iff]
  simp [IsSupplied]

/-- A repetition is supplied if its parts are for every item. -/
theorem isSupplied_forEach_iff {α : Type} {name : String} {body : List Part} {as : List α}
    {json : α → Value} (hitems : find? [name] context = some (.array (as.map json))) :
    (forEach name body).IsSupplied context ↔ ∀ a ∈ as, IsSupplied body (json a) := by
  simp [forEach, Part.IsSupplied, IsSuppliedElse, hitems, items?]

/-- An object has a value for each of its keys. -/
theorem isSome_find?_object_iff {name : String} {members : List (String × Value)} :
    (find? [name] (.object members)).isSome = true ↔ name ∈ members.map Prod.fst := by
  simp [find?, Value.get?, List.find?_isSome]

/-! ## Parts that templates share -/

theorem isSupplied_modelImports {many one : List Part} {is : List Import}
    (himports : find? ["imports"] context = some (importsJson is))
    (hcombine : (find? ["combine_imports"] context).isSome = true)
    (hmany : ∀ i : Import, IsSupplied many i.json) (hone : ∀ i : Import, IsSupplied one i.json) :
    (modelImports many one).IsSupplied context := by
  have hthere : (find? ["imports"] context).isSome = true := by rw [himports]; rfl
  have heach : ∀ parts : List Part, (∀ i : Import, IsSupplied parts i.json) →
      (forEach "imports" parts).IsSupplied context := fun parts hparts =>
    (isSupplied_forEach_iff himports).2 fun i _ => hparts i
  simp [modelImports, isSupplied_given_iff, isSupplied_choice_iff, IsSupplied, hthere, hcombine,
    heach many hmany, heach one hone]

theorem isSupplied_nameImports {is : List Import}
    (himports : find? ["imports"] context = some (importsJson is))
    (hcombine : (find? ["combine_imports"] context).isSome = true) :
    nameImports.IsSupplied context := by
  refine isSupplied_modelImports himports hcombine ?_ ?_ <;>
    exact fun i => by simp [IsSupplied, Import.json, isSome_find?_object_iff]

theorem isSupplied_revivingImports {is : List Import}
    (himports : find? ["imports"] context = some (importsJson is))
    (hcombine : (find? ["combine_imports"] context).isSome = true) :
    revivingImports.IsSupplied context := by
  refine isSupplied_modelImports himports hcombine ?_ ?_ <;>
    exact fun i => by
      simp [IsSupplied, isSupplied_given_iff, Import.json, isSome_find?_object_iff]

theorem isSupplied_serviceGroups {groups : List GroupContext} (result : String)
    (hgroups : find? ["groups"] context = some (.array (groups.map GroupContext.json))) :
    (serviceGroups result).IsSupplied context := by
  refine (isSupplied_forEach_iff hgroups).2 fun g _ => ?_
  have hname : (find? ["name"] g.json).isSome = true := rfl
  have hmethods : find? ["methods"] g.json = some (.array (g.methods.map MethodContext.json)) := rfl
  have hmethod : ∀ (m : MethodContext) (name : String), (find? [name] m.json).isSome = true ↔
      name ∈ ["name", "parameters", "return_type", "call", "error"] := fun _ _ =>
    isSome_find?_object_iff
  simp [IsSupplied, isSupplied_given_iff, isSupplied_forEach_iff hmethods, hname, hmethod]

theorem isSupplied_errorHandler (hlegacy : (find? ["legacy_http"] context).isSome = true)
    (hhandle : (find? ["handle_errors"] context).isSome = true) :
    IsSupplied errorHandler context := by
  simp [errorHandler, legacyErrorText, clientErrorText, errorMessage, errorStatus, IsSupplied,
    isSupplied_choice_iff, hlegacy, hhandle]

/-! ## Templates -/

/-- The context of an enumeration supplies its template. -/
theorem isSupplied_enumeration (e : EnumView) : IsSupplied enumeration e.json := by
  have hname : (find? ["name"] e.json).isSome = true := rfl
  have hvalues : find? ["values"] e.json = some (.array (e.values.map fun v =>
      .object [("name", .string v.name), ("value", .int v.value)])) := rfl
  simp [enumeration, IsSupplied, isSupplied_forEach_iff hvalues, hname, isSome_find?_object_iff]

/-- The context of a list of exports supplies its template. -/
theorem isSupplied_index (entries : List String) :
    IsSupplied index (.object [("entries", .strings entries)]) := by
  have hentries : find? ["entries"] (.object [("entries", .strings entries)]) =
      some (.array (entries.map .string)) := rfl
  simp [index, IsSupplied, isSupplied_forEach_iff hentries]

/-- The context of a class supplies its template. -/
theorem isSupplied_angularClass (c : Angular.ClassContext) : IsSupplied angularClass c.json := by
  have hkeys : ∀ name : String, (find? [name] c.json).isSome = true ↔
      name ∈ ["name", "is_abstract", "base", "uses_moment", "combine_imports", "has_header",
        "imports", "constants", "properties", "hydrations"] := fun _ => isSome_find?_object_iff
  have hlist : find? ["imports"] c.json = some (importsJson c.imports) := rfl
  have himports : nameImports.IsSupplied c.json :=
    isSupplied_nameImports hlist ((hkeys _).2 (by simp))
  have hconstants : find? ["constants"] c.json =
      some (.array (c.constants.map Angular.constantJson)) := rfl
  have hconstant : ∀ (d : MappedConstant) (name : String),
      (find? [name] (Angular.constantJson d)).isSome = true ↔
        name ∈ ["name", "type_name", "value"] := fun _ _ => isSome_find?_object_iff
  have hproperties : find? ["properties"] c.json =
      some (.array (c.properties.map Angular.FieldContext.json)) := rfl
  have hproperty : ∀ (f : Angular.FieldContext) (name : String),
      (find? [name] f.json).isSome = true ↔ name ∈ ["name", "type_name", "initializer"] :=
    fun _ _ => isSome_find?_object_iff
  have hhydrations : find? ["hydrations"] c.json =
      some (.array (c.hydrations.map .string)) := rfl
  simp [angularClass, angularConstructor, momentImport, extendsBase, IsSupplied,
    isSupplied_given_iff, isSupplied_choice_iff, isSupplied_forEach_iff hconstants,
    isSupplied_forEach_iff hproperties, isSupplied_forEach_iff hhydrations, himports, hkeys,
    hconstant, hproperty]

/-- The context of an interface supplies its template. -/
theorem isSupplied_reactInterface (c : React.InterfaceContext) :
    IsSupplied reactInterface c.json := by
  have hkeys : ∀ name : String, (find? [name] c.json).isSome = true ↔
      name ∈ ["name", "base", "uses_moment", "combine_imports", "has_header", "imports",
        "properties", "factory", "base_factory", "segments"] := fun _ => isSome_find?_object_iff
  have hlist : find? ["imports"] c.json = some (importsJson c.imports) := rfl
  have himports : revivingImports.IsSupplied c.json :=
    isSupplied_revivingImports hlist ((hkeys _).2 (by simp))
  have hproperties : find? ["properties"] c.json =
      some (.array (c.properties.map React.MemberContext.json)) := rfl
  have hproperty : ∀ (m : React.MemberContext) (name : String),
      (find? [name] m.json).isSome = true ↔ name ∈ ["name", "type_name"] :=
    fun _ _ => isSome_find?_object_iff
  have hsegments : find? ["segments"] c.json = some (.array (c.segments.map .string)) := rfl
  simp [reactInterface, momentImport, extendsBase, IsSupplied, isSupplied_given_iff,
    isSupplied_forEach_iff hproperties, isSupplied_forEach_iff hsegments, himports, hkeys,
    hproperty]

/-- The context of a service of observables supplies its template. -/
theorem isSupplied_angularService (c : Angular.ServiceContext) :
    IsSupplied angularService c.json := by
  have hkeys : ∀ name : String, (find? [name] c.json).isSome = true ↔
      name ∈ ["legacy_http", "handle_errors", "uses_moment", "combine_imports", "imports",
        "api_relative_path", "groups"] := fun _ => isSome_find?_object_iff
  have hlist : find? ["imports"] c.json = some (importsJson c.imports) := rfl
  have himports : nameImports.IsSupplied c.json :=
    isSupplied_nameImports hlist ((hkeys _).2 (by simp))
  have hgroupList : find? ["groups"] c.json = some (.array (c.groups.map GroupContext.json)) := rfl
  have hgroups : (serviceGroups "Observable").IsSupplied c.json :=
    isSupplied_serviceGroups "Observable" hgroupList
  have herror : IsSupplied errorHandler c.json :=
    isSupplied_errorHandler ((hkeys _).2 (by simp)) ((hkeys _).2 (by simp))
  simp [angularService, apiPathField, momentImport, isSupplied_append_iff, IsSupplied,
    isSupplied_given_iff, isSupplied_choice_iff, himports, hgroups, herror, hkeys]

/-- The context of a service of promises supplies its template. -/
theorem isSupplied_reactService (c : React.ServiceContext) : IsSupplied reactService c.json := by
  have hkeys : ∀ name : String, (find? [name] c.json).isSome = true ↔
      name ∈ ["uses_moment", "combine_imports", "imports", "api_relative_path", "groups"] :=
    fun _ => isSome_find?_object_iff
  have hlist : find? ["imports"] c.json = some (importsJson c.imports) := rfl
  have himports : revivingImports.IsSupplied c.json :=
    isSupplied_revivingImports hlist ((hkeys _).2 (by simp))
  have hgroupList : find? ["groups"] c.json = some (.array (c.groups.map GroupContext.json)) := rfl
  have hgroups : (serviceGroups "Promise").IsSupplied c.json :=
    isSupplied_serviceGroups "Promise" hgroupList
  simp [reactService, requestInterface, apiPathField, momentImport, IsSupplied,
    isSupplied_given_iff, himports, hgroups, hkeys]

end Template

end ApiClient
