import ApiClient.Proofs.Exports
import ApiClient.Proofs.Manifest.Distances
import ApiClient.Proofs.SuppliedContexts

/-!
# Files made from templates

All generated files but the manifest are made by filling templates. Each context supplies its
template, so that none of them fails, and generation fails only if the manifest is given up.

* `Scan.templatedFiles`: what the templates are filled with, for the models with a file, the service
  and the list of exports.

Results:
* `generate_eq`: generation fills these templates, then adds the manifest.
* `isSupplied_of_mem_templatedFiles`: each context supplies its template.
* `generate_eq_ok_or_schemaDiverged`: generation succeeds or gives the manifest up.
-/

namespace ApiClient

open Json

/-! ## Specification -/

/-- A file that is made by filling the template of a name. -/
structure TemplatedFile where
  path : String
  template : String
  context : Value

/-- The file with its text. -/
def TemplatedFile.render (f : TemplatedFile) : Except Error GeneratedFile :=
  (Catalog.builtIn.render f.template f.context).map fun content => ⟨f.path, content⟩

/-- The context supplies the template, which is there. -/
def TemplatedFile.IsSupplied (f : TemplatedFile) : Prop :=
  ∃ t, Catalog.builtIn.find? f.template = some t ∧ Template.IsSupplied t f.context

/-- The template of a model. -/
def Dialect.modelTemplate : Dialect → String
  | .angular => "angular/class"
  | .react => "react/interface"

/-- The template of the service. -/
def Dialect.serviceTemplate : Dialect → String
  | .angular => "angular/service"
  | .react => "react/service"

namespace Scan

/-- The file of a model or enumeration. -/
def templatedModel (s : Scan) (o : Options) (m : TypeId × TypeDef) : TemplatedFile :=
  if m.2.kind = .enumType then ⟨codePath m.2.name, "common/enum", m.2.enumView.json⟩
  else ⟨codePath m.2.name, o.dialect.modelTemplate, (s.registry.view m.1 m.2).context o⟩

/-- The file of the service, with the API path that the options have. -/
def templatedService (s : Scan) (o : Options) (apiPath : String) : TemplatedFile :=
  ⟨codePath serviceName, o.dialect.serviceTemplate, (s.registry.service s.controllers).context o
    (String.ofList (Text.dropEnd '/' apiPath.toList))⟩

/-- The list of exports. -/
def templatedIndex (s : Scan) (o : Options) : TemplatedFile :=
  ⟨codePath indexName, "common/index", .object [("entries", .strings (s.entries o))]⟩

/-- The files of a scan that are made from templates, in order. -/
def templatedFiles (s : Scan) (o : Options) : List TemplatedFile :=
  s.emittedModels.map (s.templatedModel o) ++ (o.apiPath.map (s.templatedService o)).toList
    ++ [s.templatedIndex o]

variable {s : Scan} {o : Options}

/-! ## Generation -/

theorem render_templatedModel (s : Scan) (o : Options) (m : TypeId × TypeDef) :
    (s.templatedModel o m).render = s.modelFile o m := by
  rw [templatedModel, modelFile, renderType]
  split
  · rfl
  · rw [ModelView.render]
    cases o.dialect <;> rfl

theorem render_templatedService (s : Scan) (o : Options) :
    (o.apiPath.map (s.templatedService o)).toList.mapM TemplatedFile.render =
      (s.serviceFile? o).map Option.toList := by
  rw [serviceFile?]
  cases o.apiPath with
  | none => rfl
  | some apiPath =>
    have hrender : (s.templatedService o apiPath).render =
        ((s.registry.service s.controllers).render o
          (String.ofList (Text.dropEnd '/' apiPath.toList))).map (⟨codePath serviceName, ·⟩) := by
      rw [Service.render]
      cases ho : o.dialect <;> simp only [templatedService, ho, TemplatedFile.render,
        Dialect.serviceTemplate]
    simp only [Option.map_some, Option.toList_some, List.mapM_cons, List.mapM_nil, hrender]
    cases (s.registry.service s.controllers).render o _ <;> rfl

/-- Generation fills templates one after the other, and then adds the manifest. -/
theorem generate_eq (s : Scan) (o : Options) : s.generate o = (do
    let files ← (s.templatedFiles o).mapM TemplatedFile.render
    let manifest ← s.manifestFile? o
    .ok ⟨files ++ manifest.toList⟩) := by
  have hmodels : (s.emittedModels.map (s.templatedModel o)).mapM TemplatedFile.render =
      s.emittedModels.mapM (s.modelFile o) := by
    rw [List.mapM_map]
    exact congrArg (s.emittedModels.mapM ·) (funext (s.render_templatedModel o))
  have hindex : [s.templatedIndex o].mapM TemplatedFile.render =
      (renderIndex (s.entries o)).map fun content => [⟨codePath indexName, content⟩] := by
    rw [List.mapM_cons, List.mapM_nil, TemplatedFile.render, renderIndex, templatedIndex]
    cases Catalog.builtIn.render "common/index" _ <;> rfl
  rw [generate, templatedFiles, List.mapM_append, List.mapM_append, hmodels,
    render_templatedService, hindex]
  cases s.emittedModels.mapM (s.modelFile o) with
  | error e => rfl
  | ok models =>
    cases s.serviceFile? o with
    | error e => rfl
    | ok service =>
      cases renderIndex (s.entries o) <;> rfl

/-! ## Contexts -/

theorem isSupplied_templatedModel (s : Scan) (o : Options) (m : TypeId × TypeDef) :
    (s.templatedModel o m).IsSupplied := by
  rw [templatedModel]
  split
  · exact ⟨_, rfl, Template.isSupplied_enumeration _⟩
  · rw [ModelView.context]
    cases o.dialect with
    | angular => exact ⟨_, rfl, Template.isSupplied_angularClass _⟩
    | react => exact ⟨_, rfl, Template.isSupplied_reactInterface _⟩

theorem isSupplied_templatedService (s : Scan) (o : Options) (apiPath : String) :
    (s.templatedService o apiPath).IsSupplied := by
  rw [templatedService, Service.context]
  cases o.dialect with
  | angular => exact ⟨_, rfl, Template.isSupplied_angularService _⟩
  | react => exact ⟨_, rfl, Template.isSupplied_reactService _⟩

/-- Each context supplies its template. -/
theorem isSupplied_of_mem_templatedFiles {f : TemplatedFile} (h : f ∈ s.templatedFiles o) :
    f.IsSupplied := by
  simp only [templatedFiles, List.mem_append, List.mem_map, Option.mem_toList,
    Option.map_eq_some_iff, List.mem_singleton] at h
  obtain (⟨m, _, rfl⟩ | ⟨apiPath, _, rfl⟩) | rfl := h
  · exact isSupplied_templatedModel s o m
  · exact isSupplied_templatedService s o apiPath
  · exact ⟨_, rfl, Template.isSupplied_index _⟩

end Scan

/-- A file whose context supplies its template has a text. -/
theorem TemplatedFile.IsSupplied.exists_render {f : TemplatedFile} (h : f.IsSupplied) :
    ∃ file, f.render = .ok file := by
  obtain ⟨t, ht, hsupplied⟩ := h
  obtain ⟨text, htext⟩ := Template.exists_renderParts_of_isSupplied t f.context hsupplied
  refine ⟨⟨f.path, text⟩, ?_⟩
  rw [TemplatedFile.render, (Catalog.render_eq_ok ht).2 htext]
  rfl

namespace Scan

variable {s : Scan} {o : Options}

/-! ## Outcomes -/

/-- The manifest is there, or it is given up. -/
theorem manifestFile?_eq_ok_or_schemaDiverged (s : Scan) (o : Options) :
    (∃ manifest, s.manifestFile? o = .ok manifest) ∨
      s.manifestFile? o = .error (.schemaDiverged Registry.maxPasses) ∧
        o.generateSchema = true ∧
        s.registry.manifest s.models = .error (.schemaDiverged Registry.maxPasses) := by
  rw [manifestFile?]
  split
  · rename_i hschema
    rw [Registry.manifestText, Registry.manifest_eq]
    split
    · exact .inl ⟨_, rfl⟩
    · exact .inr ⟨rfl, hschema, rfl⟩
  · exact .inl ⟨none, rfl⟩

/-- Each template is filled with a context that has all that the template names, in whichever branch
and for every item. Generation makes their files, which never fails, and then the manifest; it fails
only if the manifest is asked for and given up. -/
theorem generate_eq_ok_or_schemaDiverged (s : Scan) (o : Options) :
    (∀ f ∈ s.templatedFiles o, f.IsSupplied) ∧
    (∃ files, (s.templatedFiles o).mapM TemplatedFile.render = .ok files ∧
      s.generate o = (s.manifestFile? o).map fun manifest => ⟨files ++ manifest.toList⟩) ∧
    ((∃ code, s.generate o = .ok code) ∨
      s.generate o = .error (.schemaDiverged Registry.maxPasses) ∧ o.generateSchema = true ∧
        s.registry.manifest s.models = .error (.schemaDiverged Registry.maxPasses)) := by
  have hfiles : ∃ files, (s.templatedFiles o).mapM TemplatedFile.render = .ok files := by
    refine Disk.exists_eq_ok (isSome_mapM fun f hf => ?_)
    obtain ⟨file, hfile⟩ := (isSupplied_of_mem_templatedFiles hf).exists_render
    rw [hfile]
    rfl
  obtain ⟨files, hfiles⟩ := hfiles
  have hgenerate : s.generate o =
      (s.manifestFile? o).map fun manifest => ⟨files ++ manifest.toList⟩ := by
    rw [generate_eq, hfiles]
    cases s.manifestFile? o <;> rfl
  refine ⟨fun _ => isSupplied_of_mem_templatedFiles, ⟨files, hfiles, hgenerate⟩, ?_⟩
  rw [hgenerate]
  obtain ⟨manifest, hmanifest⟩ | ⟨herror, hgivenUp⟩ :=
    s.manifestFile?_eq_ok_or_schemaDiverged o
  · exact .inl ⟨_, by rw [hmanifest]; rfl⟩
  · exact .inr ⟨by rw [herror]; rfl, hgivenUp⟩

end Scan

end ApiClient
