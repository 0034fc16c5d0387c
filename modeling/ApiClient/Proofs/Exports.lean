import ApiClient.Generation
import ApiClient.Proofs.ClassImports
import ApiClient.Proofs.Disk.Entries

/-!
# Imports between generated files

Generated files import models by name, whether or not these models get a file. A model gets none if
its file name, up to case, is taken by the service, the list of exports or an earlier model.

Results:
* `renderIndex_eq_ok`: the list of exports has a line for each entry.
* `mem_emittedModels`: a model gets a file exactly if it is the first of its name up to case, and
  the name is not reserved.
* `generate_eq_ok`: generated code is made of the files of models, service, list of exports and
  manifest.
* `exists_of_isImported`: what is imported is the name of a model of the scan.
* `provides_iff`: an imported name is provided exactly if no other file takes its place.
* `not_provides_index`: some imported name is not provided.
-/

namespace ApiClient

/-! ## The list of exports -/

namespace Template

theorem concat_eq_ok {f : Json.Value → Except Fault String} {g : Json.Value → String}
    {vs : List Json.Value} (h : ∀ v ∈ vs, f v = .ok (g v)) :
    concat f vs = .ok (String.join (vs.map g)) := by
  induction vs with
  | nil => rfl
  | cons v vs ih =>
    rw [concat, h v (.head _), ih fun v hv => h v (.tail _ hv), List.map_cons, String.join_cons]
    rfl

/-- The text for a list of texts, each of them between two fixed ones. -/
theorem render_each_strings (key before after : String) (texts : List String) :
    render [.each [key] [.text before, .value [], .text after] none]
        (.object [(key, .strings texts)]) =
      .ok (String.join (texts.map fun text => before ++ text ++ after)) := by
  have hitem : ∀ text, renderParts [.text before, .value [], .text after] (.string text) =
      .ok (before ++ text ++ after) := by
    intro text
    simp [renderParts, renderPart, find?, display, bind, Except.bind, String.append_assoc]
  have hitems : (find? [key] (.object [(key, Json.Value.strings texts)])).bind items? =
      some (texts.map Json.Value.string) := by
    simp [find?, Json.Value.get?, Json.Value.strings, items?]
  have hconcat : concat (renderParts [.text before, .value [], .text after])
      (texts.map Json.Value.string) =
        .ok (String.join (texts.map fun text => before ++ text ++ after)) := by
    rw [concat_eq_ok (g := fun v => before ++ display v ++ after), List.map_map]
    · rfl
    · intro v hv
      obtain ⟨text, _, rfl⟩ := List.mem_map.1 hv
      exact hitem text
  rw [render, renderParts, renderParts, renderPart, hitems]
  cases texts with
  | nil => rfl
  | cons text texts =>
    rw [List.map_cons] at hconcat ⊢
    simp [hconcat, bind, Except.bind]

end Template

/-- The line that exports all of a file. -/
def exportLine (name : String) : String :=
  "export * from './" ++ name ++ "';\n"

theorem renderIndex_eq_ok (entries : List String) :
    renderIndex entries = .ok (String.join (entries.map exportLine)) := by
  have hfind : Catalog.builtIn.find? "common/index" = some Template.index := rfl
  have hline : Template.line "';" = .text "';\n" := congrArg Template.Part.text (by decide)
  have hrender := Template.render_each_strings "entries" "export * from './" "';\n" entries
  rw [← hline] at hrender
  simp only [renderIndex, Catalog.render, hfind]
  exact congrArg (Except.mapError (Catalog.failure "common/index")) hrender

/-! ## Models with a file -/

namespace Scan

variable {s : Scan}

/-- The identity is that of a type with the given name, up to case. -/
def bears (s : Scan) (name : String) (id : TypeId) : Bool :=
  (s.registry.get? id).any fun d => Text.lower d.name == Text.lower name

theorem bears_of_get? {name : String} {id : TypeId} {d : TypeDef}
    (hd : s.registry.get? id = some d) :
    s.bears name id = (Text.lower d.name == Text.lower name) := by
  rw [bears, hd, Option.any_some]

theorem mem_emitted {taken : List String} {ids : List TypeId} {m : TypeId × TypeDef} :
    m ∈ s.emitted taken ids ↔ s.registry.get? m.1 = some m.2 ∧ Text.lower m.2.name ∉ taken ∧
      ids.find? (s.bears m.2.name) = some m.1 := by
  obtain ⟨id', d'⟩ := m
  induction ids generalizing taken with
  | nil => simp [emitted]
  | cons id ids ih =>
    rw [emitted, List.find?_cons]
    cases hget : s.registry.get? id with
    | none => simp [ih, bears, hget]
    | some d =>
      simp only [bears_of_get? hget]
      by_cases htaken : Text.lower d.name ∈ taken
      · rw [if_pos htaken, ih]
        refine and_congr_right fun _ => and_congr_right fun hfree => ?_
        have hne : (Text.lower d.name == Text.lower d'.name) = false :=
          beq_eq_false_iff_ne.2 fun he => hfree (he ▸ htaken)
        rw [hne]
      · rw [if_neg htaken, List.mem_cons, ih, List.mem_cons, not_or]
        cases he : Text.lower d.name == Text.lower d'.name with
        | true =>
          have he := eq_of_beq he
          simp only [he, not_true_eq_false, false_and, and_false, or_false, Prod.mk.injEq,
            Option.some.injEq]
          constructor
          · rintro ⟨rfl, rfl⟩
            exact ⟨hget, htaken, rfl⟩
          · rintro ⟨hd, _, rfl⟩
            exact ⟨rfl, Option.some.inj (hd.symm.trans hget)⟩
        | false =>
          have hne := (beq_eq_false_iff_ne.1 he).symm
          have hself : ¬(id', d') = (id, d) := by
            rintro h
            rw [(Prod.mk.inj h).2] at hne
            exact hne rfl
          simp [hself, hne]

/-- The file names in lower case that no model gets. -/
def reserved : List String :=
  [indexName, serviceName].map Text.lower

/-- The first model of the scan with a name, up to case. -/
def first? (s : Scan) (name : String) : Option TypeId :=
  (s.models.sorted s.registry).find? (s.bears name)

theorem mem_emittedModels {m : TypeId × TypeDef} :
    m ∈ s.emittedModels ↔ s.registry.get? m.1 = some m.2 ∧ Text.lower m.2.name ∉ reserved ∧
      s.first? m.2.name = some m.1 :=
  mem_emitted

theorem exists_first? {name : String} {id : TypeId} {d : TypeDef} (hid : id ∈ s.models)
    (hd : s.registry.get? id = some d) (hname : d.name = name) :
    ∃ id' d', s.first? name = some id' ∧ s.registry.get? id' = some d' ∧
      Text.lower d'.name = Text.lower name := by
  have hbears : s.bears name id = true := by
    rw [bears_of_get? hd, hname, BEq.rfl]
  obtain ⟨id', hfirst⟩ := Option.isSome_iff_exists.1
    (List.find?_isSome.2 ⟨id, ModelSet.mem_sorted.2 hid, hbears⟩)
  have hbears' : s.bears name id' = true := List.find?_some hfirst
  obtain ⟨d', hd', hname'⟩ := (Option.any_eq_true _ _).1 hbears'
  exact ⟨id', d', hfirst, hd', eq_of_beq hname'⟩

/-! ## Files -/

theorem forall₂_of_mapM {ε α β : Type} {f : α → Except ε β} {as : List α} {bs : List β}
    (h : as.mapM f = .ok bs) : List.Forall₂ (fun a b => f a = .ok b) as bs := by
  induction as generalizing bs with
  | nil =>
    obtain rfl := Except.ok.inj h
    exact .nil
  | cons a as ih =>
    simp only [List.mapM_cons, Disk.bind_eq_ok] at h
    obtain ⟨b, hb, bs', hbs, h⟩ := h
    obtain rfl := Except.ok.inj h
    exact .cons hb (ih hbs)

theorem exists_of_mapM {ε α β : Type} {f : α → Except ε β} {as : List α} {bs : List β}
    (h : as.mapM f = .ok bs) {a : α} (ha : a ∈ as) : ∃ b ∈ bs, f a = .ok b := by
  have hpairs := forall₂_of_mapM h
  clear h
  induction hpairs with
  | nil => simp at ha
  | @cons c b as bs hb _ ih =>
    rcases List.mem_cons.1 ha with rfl | ha
    · exact ⟨b, .head _, hb⟩
    · obtain ⟨b', hb', hf⟩ := ih ha
      exact ⟨b', .tail _ hb', hf⟩

theorem isSome_mapM {ε α β : Type} {f : α → Except ε β} {as : List α}
    (h : ∀ a ∈ as, (f a).toOption.isSome = true) : (as.mapM f).toOption.isSome = true := by
  induction as with
  | nil => rfl
  | cons a as ih =>
    obtain ⟨b, hb⟩ := Disk.exists_eq_ok (h a (.head _))
    obtain ⟨bs, hbs⟩ := Disk.exists_eq_ok (ih fun a ha => h a (.tail _ ha))
    rw [List.mapM_cons, hb, hbs]
    rfl

theorem modelFile_eq_ok {o : Options} {m : TypeId × TypeDef} {f : GeneratedFile} :
    s.modelFile o m = .ok f ↔
      ∃ content, s.renderType o m.1 m.2 = .ok content ∧ f = ⟨codePath m.2.name, content⟩ := by
  rw [modelFile, Disk.map_eq_ok]
  simp only [eq_comm]

/-- The list of exports is always there; only the other files can fail. -/
theorem generate_isSome (s : Scan) (o : Options) :
    (s.generate o).toOption.isSome =
      ((s.emittedModels.mapM (s.modelFile o)).toOption.isSome &&
        (s.serviceFile? o).toOption.isSome && (s.manifestFile? o).toOption.isSome) := by
  simp only [generate, renderIndex_eq_ok]
  cases s.emittedModels.mapM (s.modelFile o) with
  | error e => rfl
  | ok models =>
    cases s.serviceFile? o with
    | error e => rfl
    | ok service => cases s.manifestFile? o <;> rfl

/-- The file that lists all exports of a scan. -/
def indexFile (s : Scan) (o : Options) : GeneratedFile :=
  ⟨codePath indexName, String.join ((s.entries o).map exportLine)⟩

/-- Generated code is made of the files of the models, that of the service, the list of exports and
the manifest. -/
theorem generate_eq_ok {o : Options} {code : GeneratedCode} :
    s.generate o = .ok code ↔ ∃ models service manifest,
      s.emittedModels.mapM (s.modelFile o) = .ok models ∧ s.serviceFile? o = .ok service ∧
      s.manifestFile? o = .ok manifest ∧
      code.files = models ++ service.toList ++ [s.indexFile o] ++ manifest.toList := by
  simp only [generate, renderIndex_eq_ok, Disk.bind_eq_ok, Except.ok.injEq]
  constructor
  · rintro ⟨models, hmodels, service, hservice, _, rfl, manifest, hmanifest, rfl⟩
    exact ⟨models, service, manifest, hmodels, hservice, hmanifest, rfl⟩
  · rintro ⟨models, service, manifest, hmodels, hservice, hmanifest, hfiles⟩
    refine ⟨models, hmodels, service, hservice, _, rfl, manifest, hmanifest, ?_⟩
    cases code
    exact congrArg GeneratedCode.mk hfiles.symm

theorem mem_files_of_mem_emittedModels {o : Options} {code : GeneratedCode}
    (h : s.generate o = .ok code) {m : TypeId × TypeDef} (hm : m ∈ s.emittedModels) :
    ∃ content, s.renderType o m.1 m.2 = .ok content ∧
      ⟨codePath m.2.name, content⟩ ∈ code.files := by
  obtain ⟨models, service, manifest, hmodels, _, _, hfiles⟩ := generate_eq_ok.1 h
  obtain ⟨f, hf, hfile⟩ := exists_of_mapM hmodels hm
  obtain ⟨content, hcontent, rfl⟩ := modelFile_eq_ok.1 hfile
  exact ⟨content, hcontent, by simp [hfiles, hf]⟩

theorem index_mem_files {o : Options} {code : GeneratedCode} (h : s.generate o = .ok code) :
    s.indexFile o ∈ code.files := by
  obtain ⟨models, service, manifest, _, _, _, hfiles⟩ := generate_eq_ok.1 h
  simp [hfiles]

theorem mem_entries_of_mem_emittedModels {o : Options} {m : TypeId × TypeDef}
    (hm : m ∈ s.emittedModels) : m.2.name ∈ s.entries o := by
  rw [entries, (Text.sortByText_perm _ _).mem_iff]
  exact List.mem_append_left _ (List.mem_map.2 ⟨m, hm, rfl⟩)

/-! ## Imports -/

end Scan

namespace Registry

variable {r : Registry}

/-- A service imports the models that its methods mention. -/
theorem mem_imports_service {controllers : List Controller} {name : String} :
    name ∈ (r.service controllers).imports.map Import.name ↔
      ∃ g ∈ (r.service controllers).groups, ∃ m ∈ g.methods, ∃ t ∈ m.types, ∃ id,
        t.model? = some (id, name) := by
  have himport : ∀ t : MappedType, (∃ i, r.importOf? t = some i ∧ i.name = name) ↔
      ∃ id, t.model? = some (id, name) := by
    intro t
    rw [importOf?]
    cases t.model? with
    | none => simp
    | some m => simp [Prod.ext_iff]
  rw [imports_service, mem_collect, ServiceGroup.typesOf]
  simp only [List.mem_map, List.mem_filterMap, List.mem_flatMap]
  constructor
  · rintro ⟨i, ⟨t, ⟨g, hg, m, hm, ht⟩, hi⟩, hname⟩
    exact ⟨g, hg, m, hm, t, ht, (himport t).1 ⟨i, hi, hname⟩⟩
  · rintro ⟨g, hg, m, hm, t, ht, hmodel⟩
    obtain ⟨i, hi, hname⟩ := (himport t).2 hmodel
    exact ⟨i, ⟨t, ⟨g, hg, m, hm, ht⟩, hi⟩, hname⟩

/-- The types of a method are those that references are mapped to. -/
theorem get?_of_mem_types {controllers : List Controller} {g : ServiceGroup} {m : ServiceMethod}
    (hg : g ∈ (r.service controllers).groups) (hm : m ∈ g.methods) {t : MappedType}
    (ht : t ∈ m.types) {p : TypeId × String} (hp : t.model? = some p) :
    ∃ e, r.get? p.1 = some e ∧ e.name = p.2 := by
  obtain ⟨_, _, o, _, _, hmethod⟩ := exists_of_mem_service hg hm
  rw [serviceMethod?_types hmethod, List.mem_append, List.mem_singleton] at ht
  rcases ht with ht | rfl
  · obtain ⟨q, _, rfl⟩ := List.mem_map.1 ht
    exact get?_of_map hp
  · cases hreturns : o.returns with
    | none => simp [hreturns] at hp
    | some returned => exact get?_of_map (by simpa [hreturns] using hp)

theorem get?_of_mem_all {id : TypeId} {d : TypeDef} {q : MappedProperty}
    (hq : q ∈ (r.view id d).all) {p : TypeId × String} (hp : q.type.model? = some p) :
    ∃ e, r.get? p.1 = some e ∧ e.name = p.2 := by
  obtain ⟨property, _, hproperty⟩ := mem_view_all.1 hq
  rw [(mappedProperty?_eq_some.1 hproperty).2.2.1] at hp
  exact get?_of_map hp

end Registry

namespace Scan

variable {s : Scan}

/-- A generated file imports a model by this name: that of a model, or that of the service if there
is one. -/
inductive IsImported (s : Scan) (o : Options) (name : String) : Prop
  | model {m : TypeId × TypeDef} : m ∈ s.emittedModels → m.2.kind ≠ .enumType →
    name ∈ (s.registry.view m.1 m.2).imports.map Import.name → s.IsImported o name
  | service : o.apiPath.isSome →
    name ∈ (s.registry.service s.controllers).imports.map Import.name → s.IsImported o name

theorem mem_models_of_mem_emittedModels {m : TypeId × TypeDef} (hm : m ∈ s.emittedModels) :
    m.1 ∈ s.models :=
  ModelSet.mem_sorted.1 (List.mem_of_find?_eq_some (mem_emittedModels.1 hm).2.2)

theorem exists_of_isImported {bases : List String} {l : LoadedModules} {o : Options} {name : String}
    (h : (ofModules bases l).IsImported o name) :
    ∃ id ∈ (ofModules bases l).models, ∃ d, l.registry.get? id = some d ∧ d.name = name := by
  cases h with
  | @model m hm _ hname =>
    have hid := mem_models_of_mem_emittedModels hm
    rcases Registry.mem_imports_view.1 hname with ⟨b, hbase, rfl⟩ | ⟨q, hq, child, _, hmodel⟩
    · obtain ⟨base, hbase, hget⟩ := Option.bind_eq_some_iff.1 hbase
      exact ⟨base, (models_closed bases l).base m.1 hid base hbase, b, hget, rfl⟩
    · obtain ⟨e, he, hname⟩ := Registry.get?_of_mem_all hq hmodel
      exact ⟨child, mem_models_of_all hid hq child name hmodel, e, he, hname⟩
  | service _ hname =>
    obtain ⟨g, hg, m, hm, t, ht, id, hmodel⟩ := Registry.mem_imports_service.1 hname
    obtain ⟨e, he, hname⟩ := Registry.get?_of_mem_types hg hm ht hmodel
    exact ⟨id, mem_models_of_service hg hm ht id name hmodel, e, he, hname⟩

/-! ## Provided names -/

/-- The code has a file for a model of this name, and the list of exports lists it. -/
structure Provides (s : Scan) (o : Options) (code : GeneratedCode) (name : String) : Prop where
  file : ∃ m ∈ s.emittedModels, m.2.name = name ∧ ∃ content,
    s.renderType o m.1 m.2 = .ok content ∧ ⟨codePath name, content⟩ ∈ code.files
  exported : ∃ entries : List String, name ∈ entries ∧
    ⟨codePath indexName, String.join (entries.map exportLine)⟩ ∈ code.files

/-- The file name of a model is taken: up to case it is that of the service or of the list of
exports, or the first model that has it is spelled in another way. -/
def IsShadowed (s : Scan) (name : String) : Prop :=
  Text.lower name ∈ reserved ∨
    ∃ id d, s.first? name = some id ∧ s.registry.get? id = some d ∧ d.name ≠ name

theorem provides_of_mem_emittedModels {o : Options} {code : GeneratedCode}
    (h : s.generate o = .ok code) {m : TypeId × TypeDef} (hm : m ∈ s.emittedModels) :
    s.Provides o code m.2.name where
  file := by
    obtain ⟨content, hcontent, hfile⟩ := mem_files_of_mem_emittedModels h hm
    exact ⟨m, hm, rfl, content, hcontent, hfile⟩
  exported := ⟨s.entries o, mem_entries_of_mem_emittedModels hm, index_mem_files h⟩

/-- A model with a file is not shadowed. -/
theorem not_isShadowed_of_mem_emittedModels {m : TypeId × TypeDef} (hm : m ∈ s.emittedModels) :
    ¬ s.IsShadowed m.2.name := by
  obtain ⟨hget, hfree, hfirst⟩ := mem_emittedModels.1 hm
  rintro (hreserved | ⟨id, d, hid, hd, hne⟩)
  · exact hfree hreserved
  · obtain rfl := Option.some.inj (hfirst.symm.trans hid)
    exact hne (congrArg (fun d : TypeDef => d.name) (Option.some.inj (hd.symm.trans hget)))

/-- The first model of a name has the file of that name. -/
theorem exists_mem_emittedModels {name : String} {id : TypeId} {d : TypeDef} (hid : id ∈ s.models)
    (hd : s.registry.get? id = some d) (hname : d.name = name) (hshadowed : ¬ s.IsShadowed name) :
    ∃ m ∈ s.emittedModels, m.2.name = name := by
  obtain ⟨id', d', hfirst, hd', _⟩ := exists_first? hid hd hname
  have hname' : d'.name = name := by
    by_contra hne
    exact hshadowed (.inr ⟨id', d', hfirst, hd', hne⟩)
  have hfree : Text.lower d'.name ∉ reserved := by
    rw [hname']
    exact fun h => hshadowed (.inl h)
  exact ⟨(id', d'), mem_emittedModels.2 ⟨hd', hfree, by rw [hname']; exact hfirst⟩, hname'⟩

/-- What a generated file imports is provided exactly if no other file takes its place. In
particular all imports are provided if the names of the models differ from each other, from the
service and from the list of exports also up to case. -/
theorem provides_iff {bases : List String} {l : LoadedModules} {o : Options} {code : GeneratedCode}
    (h : (ofModules bases l).generate o = .ok code) {name : String}
    (hname : (ofModules bases l).IsImported o name) :
    (ofModules bases l).Provides o code name ↔ ¬ (ofModules bases l).IsShadowed name := by
  constructor
  · rintro ⟨⟨m, hm, rfl, _⟩, _⟩
    exact not_isShadowed_of_mem_emittedModels hm
  · intro hshadowed
    obtain ⟨id, hid, d, hd, hname⟩ := exists_of_isImported hname
    obtain ⟨m, hm, rfl⟩ := exists_mem_emittedModels hid hd hname hshadowed
    exact provides_of_mem_emittedModels h hm

/-- A document with a model and a controller whose only operation returns it. -/
def onlyModel (name : String) : LoadedModules :=
  let blank := TypeDocument.shape.blank
  Loader.load (.ofPending [("Shop", ⟨none, [
    { blank with name },
    { blank with
      name := "ShopController", base := some (.named "ApiController" [])
      methods := [⟨"GetModel", [], [], some (.named name [])⟩] }]⟩)])

/-- Options with which a service is generated. -/
def withService : Options :=
  { Options.initial "in" "out" with apiPath := some "api" }

theorem isImported_of_service {o : Options} {name : String} (ho : o.apiPath.isSome)
    (h : (s.registry.service s.controllers).imports.map Import.name = [name]) :
    s.IsImported o name :=
  .service ho (by rw [h]; exact .head _)

theorem provides_iff_widget :
    ∃ code, (ofModules ["ApiController"] (onlyModel "Widget")).generate withService = .ok code ∧
      (ofModules ["ApiController"] (onlyModel "Widget")).IsImported withService "Widget" ∧
      ((ofModules ["ApiController"] (onlyModel "Widget")).Provides withService code "Widget" ↔
        ¬ (ofModules ["ApiController"] (onlyModel "Widget")).IsShadowed "Widget") := by
  have hok : ((ofModules ["ApiController"] (onlyModel "Widget")).generate
      withService).toOption.isSome = true := by
    rw [generate_isSome]
    decide +kernel
  obtain ⟨code, hcode⟩ := Disk.exists_eq_ok hok
  have himported : (ofModules ["ApiController"] (onlyModel "Widget")).IsImported withService
      "Widget" := isImported_of_service rfl (by decide +kernel)
  exact ⟨code, hcode, himported, provides_iff hcode himported⟩

/-- The service imports `Index`, whose file would be the list of exports. -/
theorem not_provides_index :
    ∃ code, (ofModules ["ApiController"] (onlyModel "Index")).generate withService = .ok code ∧
      (ofModules ["ApiController"] (onlyModel "Index")).IsImported withService "Index" ∧
      ¬ (ofModules ["ApiController"] (onlyModel "Index")).Provides withService code "Index" := by
  have hok : ((ofModules ["ApiController"] (onlyModel "Index")).generate
      withService).toOption.isSome = true := by
    rw [generate_isSome]
    decide +kernel
  obtain ⟨code, hcode⟩ := Disk.exists_eq_ok hok
  have himported : (ofModules ["ApiController"] (onlyModel "Index")).IsImported withService
      "Index" := isImported_of_service rfl (by decide +kernel)
  have hreserved : Text.lower "Index" ∈ reserved := by decide +kernel
  have hshadowed : (ofModules ["ApiController"] (onlyModel "Index")).IsShadowed "Index" :=
    Or.inl hreserved
  have hmissing : ¬ (ofModules ["ApiController"] (onlyModel "Index")).Provides withService code
      "Index" := by
    rintro ⟨⟨m, hm, hname, _⟩, _⟩
    exact not_isShadowed_of_mem_emittedModels hm (by rw [hname]; exact hshadowed)
  exact ⟨code, hcode, himported, hmissing⟩

end Scan

end ApiClient
