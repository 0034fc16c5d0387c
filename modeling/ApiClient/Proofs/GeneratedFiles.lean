import ApiClient.Proofs.GeneratedPaths

/-!
# Generated files

One pass over the models decides which of them get a file, and the same models are listed as
exports. The other files follow in a fixed order.

Results:
* `emitted_eq_distinctBy`: the pass keeps the first model of each name, up to case.
* `getFiles_emittedModels`: which models get a file.
* `lower_codeNames_nodup`: the names of models, service and list of exports differ, also up to case.
* `lower_codeName?_nodup_iff`: only a manifest that is a file of code can share its name, up to case.
* `codeName?_manifestPath`: the manifest of valid options is no file of code.
* `generate_isLayout`: the files of a scan, their order, their names and the list of exports.
-/

namespace ApiClient

open Text

/-! ## Specification -/

/-- The name of a file of code by its path. -/
def codeName? (path : String) : Option String :=
  (dropSuffix? ".ts".toList path.toList).map String.ofList

namespace Scan

/-- The models with their declarations in the order of generation. -/
def listed (s : Scan) : List (TypeId × TypeDef) :=
  (s.models.sorted s.registry).filterMap fun id => (s.registry.get? id).map fun d => (id, d)

/-- These models get files: those whose name, up to case, is neither that of the list of exports nor
that of the service nor that of an earlier model. -/
structure GetFiles (s : Scan) (ms : List (TypeId × TypeDef)) : Prop where
  inOrder : ms.Sublist s.listed
  mem_iff : ∀ before m after, s.listed = before ++ m :: after →
    (m ∈ ms ↔ lower m.2.name ∉ ["index", "dataservice"] ∧
      ∀ e ∈ before, lower e.2.name ≠ lower m.2.name)

/-- The files that are generated when these models get files. -/
structure IsLayout (s : Scan) (o : Options) (code : GeneratedCode)
    (ms : List (TypeId × TypeDef)) : Prop where
  getFiles : s.GetFiles ms
  /-- One file for each of the models, then the service, the list of exports and the manifest. -/
  paths : code.files.map (·.path) = ms.map (fun m => m.2.name ++ ".ts") ++
    (if o.apiPath.isSome then ["DataService.ts"] else []) ++ ["index.ts"] ++
      (if o.generateSchema then [o.manifestPath] else [])
  /-- The file of a model holds its text. -/
  texts : List.Forall₂ (fun m f => s.renderType o m.1 m.2 = .ok f.content) ms
    (code.files.take ms.length)
  /-- The names of models, service and list of exports differ, also up to case. -/
  apart : ((ms.map (·.2.name) ++ (if o.apiPath.isSome then ["DataService"] else []) ++
    ["index"]).map lower).Nodup
  /-- Two files of code have the same name, up to case, only if one of them is the manifest. -/
  distinct_iff : ((code.files.filterMap fun f => codeName? f.path).map lower).Nodup ↔
    ∀ name, o.generateSchema = true → codeName? o.manifestPath = some name → lower name ∉
      (ms.map (·.2.name) ++ (if o.apiPath.isSome then ["DataService"] else []) ++
        ["index"]).map lower
  /-- With options that are valid no two files of code, the manifest included, have the same name
  up to case. -/
  distinct : o.validate = .ok o →
    ((code.files.filterMap fun f => codeName? f.path).map lower).Nodup
  /-- The list of exports has a line for each of the models and for the service, in order. -/
  exports : ∃ names : List String, names.Pairwise (· < ·) ∧
    (∀ name, name ∈ names ↔
      (∃ m ∈ ms, m.2.name = name) ∨ o.apiPath.isSome = true ∧ name = "DataService") ∧
    ⟨"index.ts", String.join (names.map fun name => "export * from './" ++ name ++ "';\n")⟩ ∈
      code.files

variable {s : Scan} {o : Options} {code : GeneratedCode}

/-! ## Models with a file -/

theorem emitted_eq_distinctBy (s : Scan) (taken : List String) (ids : List TypeId) :
    s.emitted taken ids = distinctBy (fun m => lower m.2.name) taken
      (ids.filterMap fun id => (s.registry.get? id).map fun d => (id, d)) := by
  induction ids generalizing taken with
  | nil => rfl
  | cons id ids ih =>
    rw [emitted]
    cases hget : s.registry.get? id with
    | none => rw [List.filterMap_cons_none (by rw [hget]; rfl), ih]
    | some d =>
      rw [List.filterMap_cons_some (by rw [hget]; rfl), distinctBy]
      dsimp only
      split
      · exact ih taken
      · rw [ih]

theorem emittedModels_eq (s : Scan) :
    s.emittedModels = distinctBy (fun m => lower m.2.name) reserved s.listed :=
  s.emitted_eq_distinctBy _ _

theorem listed_nodup (s : Scan) : s.listed.Nodup := by
  have hids : (s.models.sorted s.registry).Nodup :=
    (sortByTexts_perm _ _).nodup_iff.2 s.models.nodup
  refine hids.filterMap ?_
  intro a b m ha hb
  obtain ⟨_, _, rfl⟩ := Option.map_eq_some_iff.1 ha
  obtain ⟨_, _, hm⟩ := Option.map_eq_some_iff.1 hb
  exact (congrArg Prod.fst hm).symm

theorem reserved_eq : reserved = ["index", "dataservice"] := by decide +kernel

theorem getFiles_emittedModels (s : Scan) : s.GetFiles s.emittedModels where
  inOrder := by
    rw [emittedModels_eq]
    exact distinctBy_sublist _ _ _
  mem_iff := by
    intro before m after hlisted
    have hnodup := s.listed_nodup
    rw [hlisted] at hnodup
    rw [emittedModels_eq, hlisted, mem_distinctBy_append_cons hnodup, reserved_eq]
    simp only [List.mem_map, not_exists, not_and, ne_eq]

/-! ## Names of files -/

theorem lower_codeNames_nodup (s : Scan) : (s.codeNames.map lower).Nodup := by
  have hothers : ∀ name ∈ [serviceName, indexName].map lower, name ∈ reserved := by
    decide +kernel
  rw [codeNames, List.map_append, List.nodup_append, emittedModels_eq, List.map_map]
  refine ⟨map_distinctBy_nodup _ _ _, by decide +kernel, ?_⟩
  intro name hname name' hname' he
  obtain ⟨m, hm, rfl⟩ := List.mem_map.1 hname
  subst he
  exact (mem_distinctBy hm).2 (hothers _ hname')

/-- The names of the files of code in order; there is no service without a path for it. -/
def fileNames (s : Scan) (o : Options) : List String :=
  s.emittedModels.map (·.2.name) ++ (if o.apiPath.isSome then [serviceName] else []) ++ [indexName]

theorem lower_fileNames_nodup (s : Scan) (o : Options) : ((s.fileNames o).map lower).Nodup := by
  have hsublist : (s.fileNames o).Sublist s.codeNames := by
    rw [fileNames, codeNames, List.append_assoc]
    apply List.Sublist.append_left
    split
    · exact List.Sublist.refl [serviceName, indexName]
    · exact List.sublist_cons_self serviceName [indexName]
  exact s.lower_codeNames_nodup.sublist (hsublist.map lower)

end Scan

theorem codeName?_eq_some {path name : String} :
    codeName? path = some name ↔ path = codePath name := by
  rw [codeName?, Option.map_eq_some_iff, codePath]
  constructor
  · rintro ⟨cs, hcs, rfl⟩
    apply String.toList_injective
    rw [dropSuffix?_eq_some.1 hcs, String.toList_append, String.toList_ofList (l := cs)]
  · rintro rfl
    refine ⟨name.toList, dropSuffix?_eq_some.2 ?_, String.ofList_toList⟩
    rw [String.toList_append]

theorem filterMap_codePath (names : List String) :
    (names.map codePath).filterMap codeName? = names := by
  induction names with
  | nil => rfl
  | cons name names ih =>
    rw [List.map_cons, List.filterMap_cons_some (codeName?_eq_some.2 rfl), ih]

/-- The manifest of valid options is no file of code: it ends in another letter. -/
theorem codeName?_manifestPath {o : Options} (ho : o.fault? = none)
    (hschema : o.generateSchema = true) : codeName? o.manifestPath = none := by
  cases hname : codeName? o.manifestPath with
  | none => rfl
  | some name =>
    have hends := Tree.endsIn_manifestPath ho hschema
    rw [codeName?_eq_some.1 hname] at hends
    exact absurd ((Tree.endsIn_codePath name).unique hends) (by decide)

namespace Scan

variable {s : Scan} {o : Options} {code : GeneratedCode}

theorem map_path_eq (h : s.generate o = .ok code) : code.files.map (·.path) =
    (s.fileNames o).map codePath ++ (if o.generateSchema then [o.manifestPath] else []) := by
  rw [map_path_files h, fileNames, List.map_append, List.map_append, List.map_map]
  cases o.apiPath <;> rfl

/-- The files of code by their names. The manifest is one of them if its path says so. -/
theorem filterMap_codeName? (h : s.generate o = .ok code) :
    code.files.filterMap (fun f => codeName? f.path) = s.fileNames o ++
      if o.generateSchema then (codeName? o.manifestPath).toList else [] := by
  have hmanifest : (if o.generateSchema then [o.manifestPath] else []).filterMap codeName? =
      if o.generateSchema then (codeName? o.manifestPath).toList else [] := by
    split
    · cases hname : codeName? o.manifestPath <;> simp [hname]
    · rfl
  have hpaths : code.files.filterMap (fun f => codeName? f.path) =
      (code.files.map (·.path)).filterMap codeName? := by
    rw [List.filterMap_map]
    rfl
  rw [hpaths, map_path_eq h, List.filterMap_append, filterMap_codePath, hmanifest]

/-- Only the manifest can have the name of another file of code. -/
theorem lower_codeName?_nodup_iff (h : s.generate o = .ok code) :
    ((code.files.filterMap fun f => codeName? f.path).map lower).Nodup ↔
      ∀ name, o.generateSchema = true → codeName? o.manifestPath = some name →
        lower name ∉ (s.fileNames o).map lower := by
  rw [filterMap_codeName? h]
  by_cases hschema : o.generateSchema = true
  · rw [if_pos hschema]
    cases hname : codeName? o.manifestPath with
    | none => simpa using s.lower_fileNames_nodup o
    | some name =>
      rw [Option.toList_some, List.map_append, List.map_singleton, List.nodup_append_comm,
        List.singleton_append, List.nodup_cons, and_iff_left (s.lower_fileNames_nodup o)]
      simp [hschema]
  · simpa [hschema] using s.lower_fileNames_nodup o

/-! ## Texts and exports -/

theorem forall₂_take (h : s.generate o = .ok code) :
    List.Forall₂ (fun m f => s.renderType o m.1 m.2 = .ok f.content) s.emittedModels
      (code.files.take s.emittedModels.length) := by
  obtain ⟨models, service, manifest, hmodels, _, _, hfiles⟩ := generate_eq_ok.1 h
  have hpairs := forall₂_of_mapM hmodels
  rw [hfiles, hpairs.length_eq, List.append_assoc, List.append_assoc, List.take_left]
  refine hpairs.imp fun m f hf => ?_
  obtain ⟨content, hcontent, rfl⟩ := modelFile_eq_ok.1 hf
  exact hcontent

theorem entries_eq (s : Scan) (o : Options) : s.entries o = sortByText id
    (s.emittedModels.map (·.2.name) ++ if o.apiPath.isSome then [serviceName] else []) := by
  rw [entries]
  cases o.apiPath <;> rfl

/-- What is listed as exports: each name once, in order. -/
theorem entries_pairwise_lt (s : Scan) (o : Options) : (s.entries o).Pairwise (· < ·) := by
  have hnames : (s.fileNames o).Nodup := (s.lower_fileNames_nodup o).of_map lower
  have hlisted := hnames.sublist (List.sublist_append_left _ _)
  rw [← List.map_id (_ ++ _)] at hlisted
  rw [entries_eq]
  exact sortByText_pairwise_lt hlisted

theorem mem_entries {name : String} : name ∈ s.entries o ↔
    (∃ m ∈ s.emittedModels, m.2.name = name) ∨ o.apiPath.isSome = true ∧ name = "DataService" := by
  rw [entries_eq, (sortByText_perm _ _).mem_iff, List.mem_append, List.mem_map,
    List.mem_ite_nil_right, List.mem_singleton]
  rfl

/-! ## The files of a scan -/

/-- A scan generates a file for each model whose name is free, up to case, when it comes to the
model, then the service if there is a path for it, the list of exports, and the manifest if it is
asked for. -/
theorem generate_isLayout (h : s.generate o = .ok code) : s.IsLayout o code s.emittedModels where
  getFiles := s.getFiles_emittedModels
  paths := map_path_files h
  texts := forall₂_take h
  apart := s.lower_fileNames_nodup o
  distinct_iff := lower_codeName?_nodup_iff h
  distinct := by
    intro ho
    refine (lower_codeName?_nodup_iff h).2 fun name hschema hname => ?_
    rw [codeName?_manifestPath (Options.validate_eq_ok_iff.1 ho).1 hschema] at hname
    contradiction
  exports := ⟨s.entries o, s.entries_pairwise_lt o, fun _ => mem_entries, index_mem_files h⟩

/-- A model whose file would be the list of exports, and two whose names differ in case only. -/
def clashingNames : LoadedModules :=
  let blank := TypeDocument.shape.blank
  Loader.load (.ofPending [("Shop", ⟨none, [
    { blank with name := "Index" },
    { blank with name := "Widget", properties := [⟨"Index", .named "Index" [], [], none⟩] },
    { blank with name := "widget", properties := [⟨"Outer", .named "Widget" [], [], none⟩] },
    { blank with
      name := "WidgetController", base := some (.named "ApiController" [])
      methods := [⟨"GetWidget", [], [], some (.named "widget" [])⟩] }]⟩)])

/-- Options with which a service and a manifest are generated. -/
def withManifest : Options :=
  { withService with generateSchema := true }

theorem sorted_clashingNames : (ofModules ["ApiController"] clashingNames).models.sorted
    (ofModules ["ApiController"] clashingNames).registry = [⟨0⟩, ⟨1⟩, ⟨2⟩] := by
  have hmodels : (ofModules ["ApiController"] clashingNames).models.toList = [⟨2⟩, ⟨1⟩, ⟨0⟩] := by
    decide +kernel
  have hperm : [⟨2⟩, ⟨1⟩, ⟨0⟩].Perm [(⟨0⟩ : TypeId), ⟨1⟩, ⟨2⟩] := by decide
  rw [ModelSet.sorted, hmodels, sortByTexts_eq_of_perm hperm (by decide +kernel)]
  exact List.mergeSort_of_pairwise (by decide +kernel)

/-- Only `Widget` has a file, next to the service, the list of exports and the manifest. -/
theorem generate_isLayout_clashingNames :
    (ofModules ["ApiController"] clashingNames).emittedModels.map (·.2.name) = ["Widget"] ∧
      ∃ code, (ofModules ["ApiController"] clashingNames).generate withManifest = .ok code ∧
        (ofModules ["ApiController"] clashingNames).IsLayout withManifest code
          (ofModules ["ApiController"] clashingNames).emittedModels := by
  have hemitted :
      (ofModules ["ApiController"] clashingNames).emittedModels.map (·.2.name) = ["Widget"] := by
    rw [emittedModels, sorted_clashingNames]
    decide +kernel
  have hok : ((ofModules ["ApiController"] clashingNames).generate
      withManifest).toOption.isSome = true := by
    rw [generate_isSome, emittedModels, manifestFile?, Registry.manifestText, Registry.manifest,
      sorted_clashingNames]
    decide +kernel
  obtain ⟨code, hcode⟩ := Disk.exists_eq_ok hok
  exact ⟨hemitted, code, hcode, generate_isLayout hcode⟩

/-- Options that are not valid: the manifest is to be written where the list of exports is. -/
def withManifestInIndex : Options :=
  { withManifest with schemaPath := "index.ts" }

/-- Without valid options two files of code can have the same name. -/
theorem not_distinct_manifestInIndex :
    ∃ code, (ofModules ["ApiController"] clashingNames).generate withManifestInIndex = .ok code ∧
      ¬ ((code.files.filterMap fun f => codeName? f.path).map lower).Nodup := by
  have hok : ((ofModules ["ApiController"] clashingNames).generate
      withManifestInIndex).toOption.isSome = true := by
    rw [generate_isSome, emittedModels, manifestFile?, Registry.manifestText, Registry.manifest,
      sorted_clashingNames]
    decide +kernel
  obtain ⟨code, hcode⟩ := Disk.exists_eq_ok hok
  refine ⟨code, hcode, fun hnodup => ?_⟩
  have hname : codeName? withManifestInIndex.manifestPath = some indexName := by decide +kernel
  refine (lower_codeName?_nodup_iff hcode).1 hnodup indexName rfl hname ?_
  exact List.mem_map_of_mem (List.mem_append_right _ (.head _))

end Scan

end ApiClient
