import ApiClient.Proofs.Revivals
import ApiClient.Proofs.ServiceMethods
import Mathlib.Data.List.Pairwise

/-!
# Instances of models

Where generated code makes an instance of a model, the file must know the class or the function that
does it, and the file of the model must have it. Which instances are made, what is imported, and
which files have a constructor is decided in three places.

Results:
* `Scan.HasSite`: the places where instances are made.
* `HasOwnNames.mem_emittedModels`: if names tell models apart, each model has its file.
* `HasOwnNames.mem_collect`: of the imports of one name none is lost then.
* `isSupported_of_hasSite`: at each place the instance is one of a class of the scan that is not
  abstract, the class is imported or the file's own, and its file has the constructor.
-/

namespace ApiClient

open Text

/-! ## Specification -/

namespace Scan

/-- The names of the models in lower case. -/
def lowerNames (s : Scan) : List String :=
  (s.models.toList.filterMap s.registry.get?).map fun d => Text.lower d.name

/-- The names of the models differ from each other, from the service and from the list of exports,
also up to case. -/
structure HasOwnNames (s : Scan) : Prop where
  distinct : s.lowerNames.Nodup
  free : ∀ name ∈ reserved, name ∉ s.lowerNames

/-- A place in generated code: in the file of this name, which has these imports, the text makes an
instance of a model. -/
structure Site where
  file : String
  imports : List Import
  model : String
  text : String

/-- Generated code makes an instance at a place. -/
inductive HasSite (s : Scan) (o : Options) : Site → Prop
  /-- A class or an interface revives a field. -/
  | field {m : TypeId × TypeDef} {name text : String} : m ∈ s.emittedModels →
    m.2.kind ≠ .enumType → o.revives m.2 = true →
    (some name, text) ∈ o.revivals (s.registry.view m.1 m.2) →
    s.HasSite o ⟨m.2.name, (s.registry.view m.1 m.2).imports, name, text⟩
  /-- The function of an interface calls that of its base. -/
  | base {m : TypeId × TypeDef} {name : String} : m ∈ s.emittedModels →
    m.2.kind ≠ .enumType → o.dialect = .react → m.2.isConstructible = true →
    (React.interfaceContext o (s.registry.view m.1 m.2)).baseFactory = some name → name ≠ "" →
    s.HasSite o ⟨m.2.name, (s.registry.view m.1 m.2).imports, name, React.baseCall name⟩
  /-- The service reads a response. -/
  | response {g : ServiceGroup} {m : ServiceMethod} {c : TypeScript.Construction} :
    o.apiPath.isSome → g ∈ (s.registry.service s.controllers).groups → m ∈ g.methods →
    m.construction = some c →
    s.HasSite o
      ⟨serviceName, (s.registry.service s.controllers).imports, c.name, o.call m⟩

/-- The code has what it takes to make the instance at a place. -/
structure IsSupported (s : Scan) (o : Options) (code : GeneratedCode) (p : Site) : Prop where
  /-- The text is in the file and makes an instance of the model. -/
  written : IsWithin (o.creation p.model) p.text ∧
    ∃ content, ⟨codePath p.file, content⟩ ∈ code.files ∧ IsWithin p.text content
  /-- The model is a class of the scan that is not abstract. -/
  model : ∃ id ∈ s.models, ∃ d, s.registry.get? id = some d ∧ d.name = p.model ∧
    d.kind = .classType ∧ d.isAbstract = false
  /-- It is that of the file, or is imported as one that can be instantiated. -/
  known : p.model = p.file ∨ ⟨p.model, true⟩ ∈ p.imports
  /-- Its own file has the constructor or the function that makes instances. -/
  constructor : ∃ content, ⟨codePath p.model, content⟩ ∈ code.files ∧
    IsWithin (o.constructorHead p.model) content

/-! ## Models of instances -/

end Scan

/-- The model of a property that counts as constructible can be instantiated. -/
theorem Registry.isConstructible_of_mem_all {r : Registry} {id : TypeId} {d : TypeDef}
    {q : MappedProperty} (hq : q ∈ (r.view id d).all) (hconstructible : q.constructible = true)
    {child : TypeId} {name : String} (hmodel : q.type.model? = some (child, name)) :
    r.isConstructible child = true := by
  have hflag := constructible_of_mem_view_all hq
  rw [hmodel, hconstructible] at hflag
  exact hflag.symm

theorem TypeScript.exists_of_construction {r : Registry} {t : MappedType} {c : Construction}
    (h : Construction.of? r t = some c) :
    ∃ id, t.model? = some (id, c.name) ∧ r.isConstructible id = true := by
  unfold Construction.of? at h
  split at h
  · rename_i id name hmodel
    obtain ⟨hconstructible, h⟩ := Option.ite_none_right_eq_some.1 h
    obtain rfl := Option.some.inj h
    exact ⟨id, hmodel, hconstructible⟩
  · simp at h

namespace Scan

/-! ## Names of models -/

variable {s : Scan} {o : Options} {id : TypeId} {d : TypeDef}

theorem mem_lowerNames (hid : id ∈ s.models) (hd : s.registry.get? id = some d) :
    Text.lower d.name ∈ s.lowerNames :=
  List.mem_map_of_mem (List.mem_filterMap.2 ⟨id, hid, hd⟩)

namespace HasOwnNames

theorem eq_of_lower_eq (h : s.HasOwnNames) {id' : TypeId} {d' : TypeDef} (hid : id ∈ s.models)
    (hid' : id' ∈ s.models) (hd : s.registry.get? id = some d)
    (hd' : s.registry.get? id' = some d') (hname : Text.lower d.name = Text.lower d'.name) :
    id = id' := by
  have hpairs : s.models.toList.Pairwise fun a b => ∀ d, s.registry.get? a = some d →
      ∀ e, s.registry.get? b = some e → Text.lower d.name ≠ Text.lower e.name := by
    simpa only [lowerNames, List.Nodup, List.pairwise_map, List.pairwise_filterMap] using h.distinct
  have hsymm : Std.Symm fun a b => ∀ d, s.registry.get? a = some d →
      ∀ e, s.registry.get? b = some e → Text.lower d.name ≠ Text.lower e.name :=
    ⟨fun a b hab e he d hd => (hab d hd e he).symm⟩
  by_contra hne
  exact hpairs.forall hid hid' hne d hd d' hd' hname

/-- Every model has a file of its own. -/
theorem mem_emittedModels (h : s.HasOwnNames) (hid : id ∈ s.models)
    (hd : s.registry.get? id = some d) : (id, d) ∈ s.emittedModels := by
  obtain ⟨id', d', hfirst, hd', hname⟩ := exists_first? hid hd rfl
  have hid' : id' ∈ s.models := ModelSet.mem_sorted.1 (List.mem_of_find?_eq_some hfirst)
  obtain rfl := h.eq_of_lower_eq hid' hid hd' hd hname
  refine Scan.mem_emittedModels.2 ⟨hd, fun hreserved => ?_, hfirst⟩
  exact h.free _ hreserved (mem_lowerNames hid hd)

end HasOwnNames

/-! ## Imports of models -/

/-- The import is that of a model. -/
def Stands (s : Scan) (i : Import) : Prop :=
  ∃ id ∈ s.models, ∃ d, s.registry.get? id = some d ∧ i = ⟨d.name, d.isConstructible⟩

/-- An import that is taken from a mapped type of the scan is that of its model. -/
theorem stands_of_model? {name : String} (hid : id ∈ s.models)
    (hd : ∃ d, s.registry.get? id = some d ∧ d.name = name) :
    s.Stands ⟨name, s.registry.isConstructible id⟩ := by
  obtain ⟨d, hd, rfl⟩ := hd
  refine ⟨id, hid, d, hd, ?_⟩
  rw [Registry.isConstructible, hd, Option.any_some]

theorem HasOwnNames.eq_of_stands (h : s.HasOwnNames) {i j : Import} (hi : s.Stands i)
    (hj : s.Stands j) (hname : i.name = j.name) : i = j := by
  obtain ⟨a, ha, d, hd, rfl⟩ := hi
  obtain ⟨b, hb, e, he, rfl⟩ := hj
  obtain rfl := h.eq_of_lower_eq ha hb hd he (congrArg Text.lower hname)
  obtain rfl := Option.some.inj (hd.symm.trans he)
  rfl

theorem mem_of_mem_collect {is : List Import} {i : Import} (h : i ∈ Import.collect is) :
    i ∈ is := by
  rw [Import.collect_eq, (Text.sortByText_perm _ _).mem_iff] at h
  exact List.mem_reverse.1 (mem_distinctBy h).1

/-- Of the imports of one name only the last is kept, but all are the same then. -/
theorem HasOwnNames.mem_collect (h : s.HasOwnNames) {is : List Import}
    (his : ∀ i ∈ is, s.Stands i) {i : Import} (hi : i ∈ is) : i ∈ Import.collect is := by
  have hname : i.name ∈ (Import.collect is).map Import.name :=
    Registry.mem_collect.2 (List.mem_map_of_mem hi)
  obtain ⟨j, hj, hname⟩ := List.mem_map.1 hname
  obtain rfl := h.eq_of_stands (his j (mem_of_mem_collect hj)) (his i hi) hname
  exact hj

/-- The imports of a class, as they are before they are put in order. -/
def namedImports (s : Scan) (id : TypeId) (d : TypeDef) : List Import :=
  ((s.registry.view id d).base.map fun b => ⟨b.name, b.isConstructible⟩).toList ++
    (s.registry.view id d).all.filterMap (s.registry.propertyImport? id)

variable {bases : List String} {l : LoadedModules}

/-- The imports of a model are those of models. -/
theorem stands_of_mem_namedImports (hid : id ∈ (ofModules bases l).models) {i : Import}
    (hi : i ∈ (ofModules bases l).namedImports id d) : (ofModules bases l).Stands i := by
  rcases List.mem_append.1 hi with hi | hi
  · obtain ⟨b, hb, rfl⟩ := Option.map_eq_some_iff.1 (Option.mem_toList.1 hi)
    obtain ⟨base, hbase, hget⟩ := Option.bind_eq_some_iff.1 hb
    exact ⟨base, (models_closed bases l).base id hid base hbase, b, hget, rfl⟩
  · obtain ⟨q, hq, hi⟩ := List.mem_filterMap.1 hi
    unfold Registry.propertyImport? at hi
    split at hi
    · rename_i child name hmodel
      obtain ⟨_, hi⟩ := Option.ite_none_left_eq_some.1 hi
      obtain rfl := Option.some.inj hi
      exact stands_of_model? (mem_models_of_all hid hq child name hmodel)
        (Registry.get?_of_mem_all hq hmodel)
    · simp at hi

/-- A model imports its base as it is. -/
theorem HasOwnNames.base_mem_imports (h : (ofModules bases l).HasOwnNames)
    (hid : id ∈ (ofModules bases l).models) {b : TypeDef}
    (hb : (l.registry.view id d).base = some b) :
    ⟨b.name, b.isConstructible⟩ ∈ (l.registry.view id d).imports := by
  have hnamed : ⟨b.name, b.isConstructible⟩ ∈ (ofModules bases l).namedImports id d :=
    List.mem_append_left _ (Option.mem_toList.2 (Option.map_eq_some_iff.2 ⟨b, hb, rfl⟩))
  exact h.mem_collect (fun i => stands_of_mem_namedImports hid) hnamed

/-- A model imports the model of a property as it is, unless that is the model itself. -/
theorem HasOwnNames.property_mem_imports (h : (ofModules bases l).HasOwnNames)
    (hid : id ∈ (ofModules bases l).models) {q : MappedProperty}
    (hq : q ∈ (l.registry.view id d).all) {child : TypeId} {name : String} (hchild : child ≠ id)
    (hmodel : q.type.model? = some (child, name)) :
    ⟨name, l.registry.isConstructible child⟩ ∈ (l.registry.view id d).imports := by
  have himport : l.registry.propertyImport? id q =
      some ⟨name, l.registry.isConstructible child⟩ := by
    rw [Registry.propertyImport?, hmodel]
    exact if_neg hchild
  have hnamed : ⟨name, l.registry.isConstructible child⟩ ∈ (ofModules bases l).namedImports id d :=
    List.mem_append_right _ (List.mem_filterMap.2 ⟨q, hq, himport⟩)
  exact h.mem_collect (fun i => stands_of_mem_namedImports hid) hnamed

/-- The service imports the models of its methods as they are. -/
theorem HasOwnNames.mem_imports_service (h : (ofModules bases l).HasOwnNames) {g : ServiceGroup}
    (hg : g ∈ (l.registry.service (ofModules bases l).controllers).groups) {m : ServiceMethod}
    (hm : m ∈ g.methods) {t : MappedType} (ht : t ∈ m.types) {id : TypeId} {name : String}
    (hmodel : t.model? = some (id, name)) :
    ⟨name, l.registry.isConstructible id⟩ ∈
      (l.registry.service (ofModules bases l).controllers).imports := by
  have himport : ∀ {t : MappedType} {p : TypeId × String}, t.model? = some p →
      l.registry.importOf? t = some ⟨p.2, l.registry.isConstructible p.1⟩ := by
    intro t p hp
    rw [Registry.importOf?, hp, Option.map_some]
  rw [Registry.imports_service]
  refine h.mem_collect ?_ (List.mem_filterMap.2 ⟨t, ?_, himport hmodel⟩)
  · intro i hi
    obtain ⟨t, ht, hi⟩ := List.mem_filterMap.1 hi
    obtain ⟨g, hg, ht⟩ := List.mem_flatMap.1 ht
    obtain ⟨m, hm, ht⟩ := List.mem_flatMap.1 ht
    obtain ⟨p, hp, rfl⟩ := Option.map_eq_some_iff.1 hi
    exact stands_of_model? (mem_models_of_service hg hm ht p.1 p.2 hp)
      (Registry.get?_of_mem_types hg hm ht hp)
  · exact List.mem_flatMap.2 ⟨g, hg, List.mem_flatMap.2 ⟨m, hm, ht⟩⟩

/-! ## Files -/

/-- The file of a model that is no enumeration has the text of its view. -/
theorem exists_render {code : GeneratedCode} (h : s.generate o = .ok code)
    {m : TypeId × TypeDef} (hm : m ∈ s.emittedModels) (hkind : m.2.kind ≠ .enumType) :
    ∃ content, (s.registry.view m.1 m.2).render o = .ok content ∧
      ⟨codePath m.2.name, content⟩ ∈ code.files := by
  obtain ⟨content, hcontent, hfile⟩ := mem_files_of_mem_emittedModels h hm
  rw [renderType, if_neg hkind] at hcontent
  exact ⟨content, hcontent, hfile⟩

/-- The file of a class that is not abstract has what makes its instances. -/
theorem exists_constructorHead {code : GeneratedCode} (h : s.generate o = .ok code)
    {m : TypeId × TypeDef} (hm : m ∈ s.emittedModels) (hd : m.2.isConstructible = true) :
    ∃ content, ⟨codePath m.2.name, content⟩ ∈ code.files ∧
      IsWithin (o.constructorHead m.2.name) content := by
  have hkind : m.2.kind ≠ .enumType := by
    rw [(TypeDef.isConstructible_iff.1 hd).1]
    decide
  obtain ⟨content, hcontent, hfile⟩ := exists_render h hm hkind
  have hview : (s.registry.view m.1 m.2).definition = m.2 := rfl
  rw [← hview] at hd
  have hhead := isWithin_constructorHead hd hcontent
  exact ⟨content, hfile, hhead⟩

/-- With an API path there is a file for the service. -/
theorem exists_renderService {code : GeneratedCode} (h : s.generate o = .ok code)
    (hpath : o.apiPath.isSome) :
    ∃ apiPath content, (s.registry.service s.controllers).render o apiPath = .ok content ∧
      ⟨codePath serviceName, content⟩ ∈ code.files := by
  obtain ⟨apiPath, hpath⟩ := Option.isSome_iff_exists.1 hpath
  simp only [generate, Disk.bind_eq_ok] at h
  obtain ⟨models, _, service, hservice, index, _, manifest, _, hcode⟩ := h
  obtain rfl := Except.ok.inj hcode
  simp only [serviceFile?, hpath, Disk.map_eq_ok] at hservice
  obtain ⟨content, hcontent, rfl⟩ := hservice
  exact ⟨_, content, hcontent, by simp⟩

/-! ## Places -/

section Support

variable {code : GeneratedCode} (hcode : (ofModules bases l).generate o = .ok code)
  (hnames : (ofModules bases l).HasOwnNames)

include hcode hnames

/-- The file of a model at a place is there, and has what makes instances if the model can be
instantiated. -/
theorem isSupported_of_mem_models {p : Site} (hid : id ∈ (ofModules bases l).models)
    (hd : l.registry.get? id = some d ∧ d.name = p.model)
    (hconstructible : d.isConstructible = true)
    (hwritten : IsWithin (o.creation p.model) p.text ∧
      ∃ content, ⟨codePath p.file, content⟩ ∈ code.files ∧ IsWithin p.text content)
    (hknown : p.model = p.file ∨ ⟨p.model, true⟩ ∈ p.imports) :
    (ofModules bases l).IsSupported o code p where
  written := hwritten
  model := ⟨id, hid, d, hd.1, hd.2, TypeDef.isConstructible_iff.1 hconstructible⟩
  known := hknown
  constructor := by
    rw [← hd.2]
    exact exists_constructorHead hcode (hnames.mem_emittedModels hid hd.1) hconstructible

/-- What a field is revived as is the model of an effective property. -/
theorem isSupported_field {m : TypeId × TypeDef} {name text : String}
    (hm : m ∈ (ofModules bases l).emittedModels) (hkind : m.2.kind ≠ .enumType)
    (hrevives : o.revives m.2 = true)
    (hp : (some name, text) ∈ o.revivals (l.registry.view m.1 m.2)) :
    (ofModules bases l).IsSupported o code
      ⟨m.2.name, (l.registry.view m.1 m.2).imports, name, text⟩ := by
  have hid := mem_models_of_mem_emittedModels hm
  have hget : l.registry.get? m.1 = some m.2 := (Scan.mem_emittedModels.1 hm).1
  obtain ⟨content, hrender, hfile⟩ := exists_render hcode hm hkind
  have hwithin : IsWithin text content := isWithin_of_mem_revivals hrender hrevives hp
  obtain ⟨field, hfield, hcreation⟩ := exists_of_mem_revivals hp
  obtain ⟨q, hq, hflag, child, hmodel⟩ := Registry.exists_of_mem_constructions hfield
  have hchild : l.registry.isConstructible child = true :=
    Registry.isConstructible_of_mem_all hq hflag hmodel
  obtain ⟨d, hd, hname⟩ := Registry.get?_of_mem_all hq hmodel
  have hconstructible : d.isConstructible = true := by
    rwa [Registry.isConstructible, hd, Option.any_some] at hchild
  refine isSupported_of_mem_models hcode hnames (mem_models_of_all hid hq child name hmodel)
    ⟨hd, hname⟩ hconstructible ⟨hcreation, content, hfile, hwithin⟩ ?_
  by_cases hself : child = m.1
  · obtain rfl : d = m.2 := Option.some.inj (hd.symm.trans (hself ▸ hget))
    exact .inl hname.symm
  · have himport := hnames.property_mem_imports hid hq hself hmodel
    rw [hchild] at himport
    exact .inr himport

/-- What the function of a base is called for is the base. -/
theorem isSupported_base {m : TypeId × TypeDef} {name : String}
    (hm : m ∈ (ofModules bases l).emittedModels) (hkind : m.2.kind ≠ .enumType)
    (ho : o.dialect = .react) (hconstructible : m.2.isConstructible = true)
    (hbase : (React.interfaceContext o (l.registry.view m.1 m.2)).baseFactory = some name)
    (hname : name ≠ "") :
    (ofModules bases l).IsSupported o code
      ⟨m.2.name, (l.registry.view m.1 m.2).imports, name, React.baseCall name⟩ := by
  have hid := mem_models_of_mem_emittedModels hm
  obtain ⟨content, hrender, hfile⟩ := exists_render hcode hm hkind
  have hwithin : IsWithin (React.baseCall name) content :=
    isWithin_of_baseFactory ho hconstructible hrender hbase hname
  obtain ⟨b, hb, hbname⟩ := Option.map_eq_some_iff.1 hbase
  obtain ⟨hb, hbconstructible⟩ := Option.filter_eq_some_iff.1 hb
  obtain ⟨base, hbaseId, hget⟩ := Option.bind_eq_some_iff.1 hb
  refine isSupported_of_mem_models hcode hnames ((models_closed bases l).base m.1 hid base hbaseId)
    ⟨hget, hbname⟩ hbconstructible ⟨isWithin_creation_baseCall ho, content, hfile, hwithin⟩ ?_
  have himport := hnames.base_mem_imports hid hb
  rw [hbname, hbconstructible] at himport
  exact .inr himport

/-- What a response is made an instance of is the model that the method returns. -/
theorem isSupported_response {g : ServiceGroup} {m : ServiceMethod} {c : TypeScript.Construction}
    (hpath : o.apiPath.isSome)
    (hg : g ∈ (l.registry.service (ofModules bases l).controllers).groups) (hm : m ∈ g.methods)
    (hc : m.construction = some c) :
    (ofModules bases l).IsSupported o code
      ⟨serviceName, (l.registry.service (ofModules bases l).controllers).imports, c.name,
        o.call m⟩ := by
  obtain ⟨apiPath, content, hrender, hfile⟩ := exists_renderService hcode hpath
  have hwithin : IsWithin (o.call m) content := isWithin_of_mem_methods hg hm hrender
  obtain ⟨_, _, operation, _, _, hmethod⟩ := Registry.exists_of_mem_service hg hm
  have hreturns : TypeScript.Construction.of? l.registry m.returns = some c :=
    (Registry.isMethodOf_of_serviceMethod? hmethod).construction.symm.trans hc
  obtain ⟨id, hmodel, hconstructible⟩ := TypeScript.exists_of_construction hreturns
  have ht : m.returns ∈ m.types := List.mem_append_right _ (.head _)
  obtain ⟨d, hd, hname⟩ := Registry.get?_of_mem_types hg hm ht hmodel
  have himport := hnames.mem_imports_service hg hm ht hmodel
  rw [hconstructible] at himport
  rw [Registry.isConstructible, hd, Option.any_some] at hconstructible
  exact isSupported_of_mem_models hcode hnames (mem_models_of_service hg hm ht id c.name hmodel)
    ⟨hd, hname⟩ hconstructible ⟨isWithin_creation_call hc, content, hfile, hwithin⟩ (.inr himport)

end Support

/-- If the names of the models tell their files apart, wherever generated code makes an instance of
a model it can: the model is a class that is not abstract, it is the file's own or imported as such,
and its file has the constructor or the function. -/
theorem isSupported_of_hasSite {code : GeneratedCode}
    (hcode : (ofModules bases l).generate o = .ok code) (hnames : (ofModules bases l).HasOwnNames)
    {p : Site} (h : (ofModules bases l).HasSite o p) :
    (ofModules bases l).IsSupported o code p := by
  cases h with
  | field hm hkind hrevives hp => exact isSupported_field hcode hnames hm hkind hrevives hp
  | base hm hkind ho hconstructible hbase hname =>
    exact isSupported_base hcode hnames hm hkind ho hconstructible hbase hname
  | response hpath hg hm hc => exact isSupported_response hcode hnames hpath hg hm hc

/-- A class with a base and an array of its own instances, and a controller that returns it. -/
def nestedWidgets : LoadedModules :=
  let blank := TypeDocument.shape.blank
  Loader.load (.ofPending [("Shop", ⟨none, [
    { blank with name := "Entity" },
    { blank with
      name := "Widget", base := some (.named "Entity" [])
      properties := [⟨"Parts", .array (.named "Widget" []), [], none⟩] },
    { blank with
      name := "WidgetController", base := some (.named "ApiController" [])
      methods := [⟨"GetWidget", [], [], some (.named "Widget" [])⟩] }]⟩)])

/-- Options with which a service of the second dialect is generated. -/
def withPromises : Options :=
  { withService with dialect := .react }

/-- Files are generated for all models: each of them can be rendered, whatever their order. -/
theorem generate_nestedWidgets : ∃ code,
    (ofModules ["ApiController"] nestedWidgets).generate withPromises = .ok code := by
  have hmodels : ∀ id ∈ (ofModules ["ApiController"] nestedWidgets).models.toList,
      (nestedWidgets.registry.get? id).all fun d =>
        ((ofModules ["ApiController"] nestedWidgets).modelFile withPromises
          (id, d)).toOption.isSome := by
    decide +kernel
  have hothers : ((ofModules ["ApiController"] nestedWidgets).serviceFile?
      withPromises).toOption.isSome = true ∧
        ((ofModules ["ApiController"] nestedWidgets).manifestFile?
          withPromises).toOption.isSome = true := by
    decide +kernel
  refine Disk.exists_eq_ok ?_
  rw [generate_isSome, hothers.1, hothers.2, Bool.and_true, Bool.and_true]
  refine isSome_mapM fun m hm => ?_
  have hget := (Scan.mem_emittedModels.1 hm).1
  have hmodel := hmodels m.1 (mem_models_of_mem_emittedModels hm)
  exact (Option.all_eq_true _ _).1 hmodel m.2 hget

/-- `Widget` revives its parts, which are its own instances, and calls the function of its base. The
service makes an instance of a response. -/
theorem isSupported_nestedWidgets :
    ∃ code, (ofModules ["ApiController"] nestedWidgets).generate withPromises = .ok code ∧
      (ofModules ["ApiController"] nestedWidgets).HasOwnNames ∧
      ∀ names ∈ [("Widget", "Widget"), ("Widget", "Entity"), (serviceName, "Widget")],
        ∃ p : Site, (p.file, p.model) = names ∧
          (ofModules ["ApiController"] nestedWidgets).HasSite withPromises p ∧
          (ofModules ["ApiController"] nestedWidgets).IsSupported withPromises code p := by
  obtain ⟨code, hcode⟩ := generate_nestedWidgets
  have hnames : (ofModules ["ApiController"] nestedWidgets).HasOwnNames :=
    ⟨by decide +kernel, by decide +kernel⟩
  have hwidget : ⟨1⟩ ∈ (ofModules ["ApiController"] nestedWidgets).models := by decide +kernel
  have hclass : (nestedWidgets.registry.get? ⟨1⟩).any fun d => d.name == "Widget" &&
      d.isConstructible && d.kind == .classType &&
      (React.interfaceContext withPromises (nestedWidgets.registry.view ⟨1⟩ d)).baseFactory ==
        some "Entity" &&
      (React.revivals (nestedWidgets.registry.view ⟨1⟩ d)).any fun p => p.1 == some "Widget" := by
    decide +kernel
  have hresponse : ∃ g ∈ ((ofModules ["ApiController"] nestedWidgets).registry.service
      (ofModules ["ApiController"] nestedWidgets).controllers).groups, ∃ m ∈ g.methods,
        m.construction = some ⟨"Widget", false⟩ := by
    decide +kernel
  obtain ⟨d, hd, hclass⟩ := (Option.any_eq_true _ _).1 hclass
  simp only [Bool.and_eq_true, beq_iff_eq, List.any_eq_true] at hclass
  obtain ⟨⟨⟨⟨hname, hconstructible⟩, hclass⟩, hbase⟩, ⟨_, text⟩, hp, rfl⟩ := hclass
  obtain ⟨g, hg, m, hm, hc⟩ := hresponse
  have hkind : d.kind ≠ .enumType := by
    rw [hclass]
    decide
  have hemitted := hnames.mem_emittedModels hwidget hd
  have hfield : (ofModules ["ApiController"] nestedWidgets).HasSite withPromises
      ⟨d.name, (nestedWidgets.registry.view ⟨1⟩ d).imports, "Widget", text⟩ :=
    .field hemitted hkind hconstructible hp
  have hentity : (ofModules ["ApiController"] nestedWidgets).HasSite withPromises
      ⟨d.name, (nestedWidgets.registry.view ⟨1⟩ d).imports, "Entity", React.baseCall "Entity"⟩ :=
    .base hemitted hkind rfl hconstructible hbase (by decide)
  have hmethod : (ofModules ["ApiController"] nestedWidgets).HasSite withPromises
      ⟨serviceName, ((ofModules ["ApiController"] nestedWidgets).registry.service
        (ofModules ["ApiController"] nestedWidgets).controllers).imports, "Widget",
        withPromises.call m⟩ := .response rfl hg hm hc
  refine ⟨code, hcode, hnames, ?_⟩
  simp only [List.forall_mem_cons, List.not_mem_nil, false_implies, implies_true, and_true]
  refine ⟨⟨_, ?_, hfield, isSupported_of_hasSite hcode hnames hfield⟩,
    ⟨_, ?_, hentity, isSupported_of_hasSite hcode hnames hentity⟩,
    ⟨_, rfl, hmethod, isSupported_of_hasSite hcode hnames hmethod⟩⟩ <;>
  · rw [hname]

end Scan

end ApiClient
