import ApiClient.Proofs.Containment
import ApiClient.Proofs.Exports

/-!
# Paths of generated files

Generated files end in the letters of code, and the manifest in those of its format. Files are
written under a name with a third ending first, so none of them is in the way of another.

Results:
* `segments_of_parse`: the names of a path that is read.
* `map_path_files`, `path_of_mem_generate`: what paths a scan generates.
* `not_temporary_of_generate`: none of them is the temporary path of another one.
* `nodup_of_generate`: if no model has slashes in its name, they lead to different places.
-/

namespace ApiClient

open Output

/-! ## Names of a path -/

namespace Path

/-- The names of a path that say something. -/
def steps (cs : List Char) : List (List Char) :=
  (Text.splitOn '/' cs).filter (!isIdle ·)

theorem steps_dropHere (cs : List Char) : steps (dropHere cs) = steps cs := by
  fun_induction dropHere cs with
  | case1 cs ih =>
    rw [ih, steps, steps, splitOn_here, List.filter_cons_of_neg (by decide)]
  | case2 cs => rfl

theorem dropHere_suffix (cs : List Char) : dropHere cs <:+ cs := by
  fun_induction dropHere cs with
  | case1 cs ih => exact ih.trans (List.suffix_append ['.', '/'] cs)
  | case2 cs => exact List.suffix_rfl

/-- Slashes are put in place of backslashes once. -/
theorem forwardSlashes_dropHere (p : String) :
    forwardSlashes (String.ofList (dropHere (forwardSlashes p))) = dropHere (forwardSlashes p) := by
  have hslash : ∀ c ∈ dropHere (forwardSlashes p), (if c = '\\' then '/' else c) = c := by
    intro c hc
    obtain ⟨c, _, rfl⟩ := List.mem_map.1 ((dropHere_suffix _).subset hc)
    grind
  rw [forwardSlashes, String.toList_ofList, List.map_congr_left hslash, List.map_id']

/-- The last name has this letter at its end. -/
def EndsIn (c : Char) (ss : List (List Char)) : Prop :=
  ∃ init s, ss = init ++ [s ++ [c]]

namespace EndsIn

variable {c : Char} {ss : List (List Char)}

theorem splitOn {sep : Char} (hc : c ≠ sep) (cs : List Char) :
    EndsIn c (Text.splitOn sep (cs ++ [c])) := by
  induction cs with
  | nil => exact ⟨[], [], by simp [Text.splitOn, hc]⟩
  | cons a cs ih =>
    obtain ⟨init, s, h⟩ := ih
    rw [List.cons_append, Text.splitOn, h]
    split
    · exact ⟨[] :: init, s, rfl⟩
    · cases init with
      | nil => exact ⟨[], a :: s, rfl⟩
      | cons t init => exact ⟨(a :: t) :: init, s, rfl⟩

/-- A name with a letter other than a dot at its end says something. -/
theorem filter (hc : c ≠ '.') (h : EndsIn c ss) : EndsIn c (ss.filter (!isIdle ·)) := by
  obtain ⟨init, s, rfl⟩ := h
  have hidle : [s ++ [c]].filter (!isIdle ·) = [s ++ [c]] := by
    cases s <;> simp [isIdle, hc]
  exact ⟨init.filter (!isIdle ·), s, by rw [List.filter_append, hidle]⟩

theorem append_left (h : EndsIn c ss) (init : List (List Char)) : EndsIn c (init ++ ss) := by
  obtain ⟨init', s, rfl⟩ := h
  exact ⟨init ++ init', s, by rw [List.append_assoc]⟩

theorem unique {c' : Char} (h : EndsIn c ss) (h' : EndsIn c' ss) : c = c' := by
  obtain ⟨init, s, rfl⟩ := h
  obtain ⟨init', s', he⟩ := h'
  obtain ⟨_, hlast⟩ := List.append_inj' he rfl
  obtain ⟨_, hc⟩ := List.append_inj' (List.singleton_inj.1 hlast) rfl
  exact List.singleton_inj.1 hc

end EndsIn

theorem ofName?_eq_none {s : List Char} : Component.ofName? s = none ↔ isIdle s = true := by
  unfold Component.ofName?
  split
  · simp_all [isIdle]
  · split <;> simp_all [isIdle]

theorem toList_of_ofName? {s : List Char} {name : String}
    (h : Component.ofName? s = some (.name name)) : s = name.toList := by
  unfold Component.ofName? at h
  split at h
  · cases h
  · split at h
    · cases h
    · cases h
      rw [String.toList_ofList]

/-- After the file name of a path nothing is said. -/
theorem splitOn_of_fileName? {p name : String} (h : fileName? p = some name) :
    ∃ init idle, Text.splitOn '/' p.toList = init ++ name.toList :: idle ∧
      ∀ s ∈ idle, isIdle s = true := by
  have hlast : ((Text.splitOn '/' p.toList).filterMap Component.ofName?).getLast? =
      some (.name name) := by
    have hfirst : ∀ {first : Component} {cs : List Component}, (∀ text, first ≠ .name text) →
        (first :: cs).getLast? = some (.name name) → cs.getLast? = some (.name name) := by
      intro first cs hne h
      rw [List.getLast?_cons] at h
      cases hcs : cs.getLast? with
      | none => simp [hcs, hne] at h
      | some c => simpa [hcs] using h
    unfold fileName? at h
    split at h
    · rename_i text hlast
      obtain rfl := Option.some.inj h
      unfold components at hlast
      dsimp only at hlast
      split at hlast
      · exact hfirst (by simp) hlast
      · split at hlast
        · exact hfirst (by simp) hlast
        · exact hlast
    · cases h
  rw [List.getLast?_filterMap] at hlast
  obtain ⟨idle, s, init, hsplit, hs, hidle⟩ := List.findSome?_eq_some_iff.1 hlast
  refine ⟨init.reverse, idle.reverse, ?_, fun t ht => ?_⟩
  · rw [← toList_of_ofName? hs, ← List.reverse_inj, hsplit]
    simp
  · exact ofName?_eq_none.1 (hidle t (List.mem_reverse.1 ht))

/-- The last name of a path with an extension ends as the extension does. -/
theorem endsIn_of_extension? {p : String} (h : extension? p = some "json") :
    EndsIn 'n' (steps (forwardSlashes p)) := by
  obtain ⟨name, hname, hextension⟩ := Option.bind_eq_some_iff.1 h
  obtain ⟨ending, hending, hjson⟩ := Option.map_eq_some_iff.1 hextension
  have hends : ∃ cs, name.toList = cs ++ ['n'] := by
    have hinit : ['n', 'o', 's', 'j'] <+: name.toList.reverse := by
      unfold splitName at hending
      dsimp only at hending
      split at hending
      · cases hending
      · have hreverse : name.toList.reverse.takeWhile (· != '.') = ['n', 'o', 's', 'j'] := by
          rw [← List.reverse_inj, Option.some.inj hending]
          exact String.ofList_injective (hjson.trans (by decide))
        exact hreverse ▸ List.takeWhile_prefix _
    obtain ⟨cs, hcs⟩ := hinit
    exact ⟨cs.reverse ++ ['j', 's', 'o'], by rw [← List.reverse_inj, ← hcs]; simp⟩
  obtain ⟨cs, hcs⟩ := hends
  obtain ⟨init, idle, hsplit, hidle⟩ := splitOn_of_fileName? hname
  have hidle : (idle.flatMap (Text.splitOn '\\')).filter (!isIdle ·) = [] := by
    refine List.filter_eq_nil_iff.2 fun t ht => ?_
    obtain ⟨s, hs, ht⟩ := List.mem_flatMap.1 ht
    have hs := hidle s hs
    have hback : '\\' ∉ s := by
      rcases Bool.or_eq_true_iff.1 hs with hs | hs
      · simp [List.isEmpty_iff.1 hs]
      · simp [eq_of_beq hs]
    rw [Text.splitOn_of_not_mem hback, List.mem_singleton] at ht
    simp [ht, hs]
  rw [steps, splitOn_forwardSlashes, hsplit, hcs, List.flatMap_append, List.flatMap_cons,
    List.filter_append, List.filter_append, hidle, List.append_nil]
  exact ((EndsIn.splitOn (by decide) cs).filter (by decide)).append_left _

end Path

/-! ## Generated paths -/

theorem FilePath.segments_of_parse {path : String} {f : FilePath} (h : parse path = .ok f) :
    f.segments = (Path.steps (Path.forwardSlashes path)).map String.ofList := by
  rw [← Path.steps_dropHere, ← String.toList_ofList (l := Path.dropHere _), ← text_of_parse h]
  rfl

namespace Scan

/-- The names of the files of code: the models with a file, the service and the list of exports. -/
def codeNames (s : Scan) : List String :=
  s.emittedModels.map (·.2.name) ++ [serviceName, indexName]

variable {s : Scan} {o : Options} {code : GeneratedCode}

theorem map_path_of_mapM {ms : List (TypeId × TypeDef)} {files : List GeneratedFile}
    (h : ms.mapM (s.modelFile o) = .ok files) :
    files.map (·.path) = ms.map fun m => codePath m.2.name := by
  symm
  rw [← List.forall₂_eq_eq_eq, List.forall₂_map_left_iff, List.forall₂_map_right_iff]
  refine (forall₂_of_mapM h).imp fun m f hf => ?_
  obtain ⟨content, _, rfl⟩ := modelFile_eq_ok.1 hf
  rfl

theorem map_path_serviceFile? {service : Option GeneratedFile}
    (h : s.serviceFile? o = .ok service) :
    service.toList.map (·.path) = if o.apiPath.isSome then [codePath serviceName] else [] := by
  unfold serviceFile? at h
  split at h
  · rename_i hpath
    obtain rfl := Except.ok.inj h
    rw [hpath]
    rfl
  · rename_i hpath
    obtain ⟨content, _, rfl⟩ := Disk.map_eq_ok.1 h
    rw [hpath]
    rfl

theorem map_path_manifestFile? {manifest : Option GeneratedFile}
    (h : s.manifestFile? o = .ok manifest) :
    manifest.toList.map (·.path) = if o.generateSchema then [o.manifestPath] else [] := by
  unfold manifestFile? at h
  split at h
  · rename_i hschema
    obtain ⟨content, _, rfl⟩ := Disk.map_eq_ok.1 h
    rw [if_pos hschema]
    rfl
  · rename_i hschema
    obtain rfl := Except.ok.inj h
    rw [if_neg hschema]
    rfl

/-- The paths of generated code in order. -/
theorem map_path_files (h : s.generate o = .ok code) :
    code.files.map (·.path) = s.emittedModels.map (fun m => codePath m.2.name) ++
      (if o.apiPath.isSome then [codePath serviceName] else []) ++ [codePath indexName] ++
        (if o.generateSchema then [o.manifestPath] else []) := by
  obtain ⟨models, service, manifest, hmodels, hservice, hmanifest, hfiles⟩ := generate_eq_ok.1 h
  rw [hfiles, List.map_append, List.map_append, List.map_append, map_path_of_mapM hmodels,
    map_path_serviceFile? hservice, map_path_manifestFile? hmanifest]
  rfl

/-- A scan generates files of code and the manifest. -/
theorem path_of_mem_generate (h : s.generate o = .ok code) {f : GeneratedFile}
    (hf : f ∈ code.files) :
    (∃ name ∈ s.codeNames, f.path = codePath name) ∨
      o.generateSchema = true ∧ f.path = o.manifestPath := by
  have hpath : f.path ∈ code.files.map (·.path) := List.mem_map_of_mem hf
  rw [map_path_files h, List.mem_append, List.mem_append, List.mem_append] at hpath
  rcases hpath with ((hmodel | hservice) | hindex) | hmanifest
  · obtain ⟨m, hm, hpath⟩ := List.mem_map.1 hmodel
    exact .inl ⟨_, List.mem_append_left _ (List.mem_map_of_mem hm), hpath.symm⟩
  · split at hservice
    · exact .inl ⟨serviceName, by simp [codeNames], List.mem_singleton.1 hservice⟩
    · cases hservice
  · exact .inl ⟨indexName, by simp [codeNames], List.mem_singleton.1 hindex⟩
  · split at hmanifest
    · exact .inr ⟨by assumption, List.mem_singleton.1 hmanifest⟩
    · cases hmanifest

end Scan

namespace Tree

theorem parse_of_mem_addAll {t : Tree} {files : List GeneratedFile} {f : FilePath × String}
    (h : f ∈ (t.addAll files).1.entries) :
    f ∈ t.entries ∨ ∃ g ∈ files, FilePath.parse g.path = .ok f.1 := by
  induction files generalizing t with
  | nil => exact .inl h
  | cons g gs ih =>
    have hrest : (∃ g' ∈ gs, FilePath.parse g'.path = .ok f.1) →
        ∃ g' ∈ g :: gs, FilePath.parse g'.path = .ok f.1 :=
      fun ⟨g', hg', hparse⟩ => ⟨g', .tail _ hg', hparse⟩
    rw [addAll_cons] at h
    cases hparse : FilePath.parse g.path with
    | error fault =>
      rw [hparse] at h
      exact (ih h).imp_right hrest
    | ok p =>
      rw [hparse] at h
      rcases ih h with hput | hlater
      · rcases List.mem_append.1 hput with hkept | hnew
        · exact .inl (List.mem_filter.1 hkept).1
        · rw [List.mem_singleton.1 hnew]
          exact .inr ⟨g, .head _, hparse⟩
      · exact .inr (hrest hlater)

/-- The paths of a tree are those that were read. -/
theorem parse_of_mem_build {t : Tree} {files : List GeneratedFile} (h : build files = .ok t)
    {f : FilePath × String} (hf : f ∈ t.files) : ∃ g ∈ files, FilePath.parse g.path = .ok f.1 := by
  have hentries : t.entries = (empty.addAll files).1.entries := by
    rw [build] at h
    split at h
    · rename_i hadd
      rw [hadd, Except.ok.inj h]
    · cases h
  rcases parse_of_mem_addAll (hentries ▸ mem_files.1 hf) with hempty | hfile
  · cases hempty
  · exact hfile

theorem endsIn_codePath (name : String) :
    Path.EndsIn 's' (Path.steps (Path.forwardSlashes (codePath name))) := by
  have hends : Path.forwardSlashes (codePath name) =
      Path.forwardSlashes (name ++ ".t") ++ ['s'] := by
    rw [codePath, Path.forwardSlashes, Path.forwardSlashes, String.toList_append,
      String.toList_append, List.map_append, List.map_append, List.append_assoc]
    rfl
  rw [hends]
  exact (Path.EndsIn.splitOn (by decide) _).filter (by decide)

theorem endsIn_manifestPath {o : Options} (ho : o.fault? = none)
    (hschema : o.generateSchema = true) :
    Path.EndsIn 'n' (Path.steps (Path.forwardSlashes o.manifestPath)) := by
  have hextension : Path.extension? o.schemaPath = some "json" := by
    unfold Options.fault? at ho
    grind
  rw [Options.manifestPath, Path.forwardSlashes_dropHere, Path.steps_dropHere]
  exact Path.endsIn_of_extension? hextension

/-- The last name of a generated file ends as code or as the manifest does. -/
theorem endsIn_of_generate {s : Scan} {o : Options} {code : GeneratedCode}
    (ho : o.fault? = none) (hcode : s.generate o = .ok code) {f : GeneratedFile}
    (hf : f ∈ code.files) :
    ∃ c ∈ ['s', 'n'], Path.EndsIn c (Path.steps (Path.forwardSlashes f.path)) := by
  rcases Scan.path_of_mem_generate hcode hf with ⟨name, _, hpath⟩ | ⟨hschema, hpath⟩ <;> rw [hpath]
  · exact ⟨'s', .head _, endsIn_codePath name⟩
  · exact ⟨'n', .tail _ (.head _), endsIn_manifestPath ho hschema⟩

/-- With valid options no generated file has the temporary path of another one. -/
theorem not_temporary_of_generate {s : Scan} {o : Options} {code : GeneratedCode} {t : Tree}
    (ho : o.fault? = none) (hcode : s.generate o = .ok code) (ht : build code.files = .ok t)
    {f : FilePath × String} (hf : f ∈ t.files) (directory path : String) :
    f.1.diskPath directory ≠ temporaryPath path := by
  obtain ⟨g, hg, hparse⟩ := parse_of_mem_build ht hf
  obtain ⟨c, hc, init, s, hsteps⟩ := endsIn_of_generate ho hcode hg
  have hsegments : f.1.segments = init.map String.ofList ++ [String.ofList (s ++ [c])] := by
    rw [FilePath.segments_of_parse hparse, hsteps, List.map_append]
    rfl
  have hname : IsName (String.ofList (s ++ [c])) :=
    FilePath.isName_of_mem_segments (f := f.1) (by simp [hsegments])
  have hlast : (f.1.diskPath directory).toList.getLast? = some c := by
    rw [FilePath.diskPath, hsegments, List.foldl_append, List.foldl_cons, List.foldl_nil,
      hname.getLast?_join_eq]
    simp
  intro he
  have htemporary : (temporaryPath path).toList.getLast? = some 'p' := by
    simp [temporaryPath]
  rw [← he, hlast] at htemporary
  revert hc
  rw [Option.some.inj htemporary]
  decide

theorem steps_codePath {name : String} (h : '/' ∉ name.toList ∧ '\\' ∉ name.toList) :
    Path.steps (Path.forwardSlashes (codePath name)) = [(codePath name).toList] := by
  have hslash : '/' ∉ (codePath name).toList := by
    simp [codePath, h.1]
  have hback : '\\' ∉ (codePath name).toList := by
    simp [codePath, h.2]
  have hsplit : Text.splitOn '/' (Path.forwardSlashes (codePath name)) =
      [(codePath name).toList] := by
    rw [splitOn_forwardSlashes, Text.splitOn_of_not_mem hslash, List.flatMap_singleton,
      Text.splitOn_of_not_mem hback]
  obtain ⟨init, s, hends⟩ := endsIn_codePath name
  rw [Path.steps, hsplit] at hends ⊢
  cases hidle : Path.isIdle (codePath name).toList with
  | false => simp [hidle]
  | true => simp [hidle] at hends

theorem plain_of_mem_codeNames {s : Scan}
    (hnames : ∀ m ∈ s.emittedModels, '/' ∉ m.2.name.toList ∧ '\\' ∉ m.2.name.toList)
    {name : String} (h : name ∈ s.codeNames) : '/' ∉ name.toList ∧ '\\' ∉ name.toList := by
  rcases List.mem_append.1 h with hmodel | hfixed
  · obtain ⟨m, hm, rfl⟩ := List.mem_map.1 hmodel
    exact hnames m hm
  · have hplain : ∀ name ∈ [serviceName, indexName],
        '/' ∉ name.toList ∧ '\\' ∉ name.toList := by
      decide
    exact hplain name hfixed

/-- Generated paths with the same names are the same: the only name of a file of code is its path,
and the manifest ends in another way. -/
theorem path_eq_of_steps_eq {s : Scan} {o : Options} {code : GeneratedCode}
    (ho : o.fault? = none) (hcode : s.generate o = .ok code)
    (hnames : ∀ m ∈ s.emittedModels, '/' ∉ m.2.name.toList ∧ '\\' ∉ m.2.name.toList)
    {f g : GeneratedFile} (hf : f ∈ code.files) (hg : g ∈ code.files)
    (h : Path.steps (Path.forwardSlashes f.path) = Path.steps (Path.forwardSlashes g.path)) :
    f.path = g.path := by
  have hplain : ∀ name ∈ s.codeNames, '/' ∉ name.toList ∧ '\\' ∉ name.toList :=
    fun name => plain_of_mem_codeNames hnames
  rcases Scan.path_of_mem_generate hcode hf with ⟨n, hn, hf⟩ | ⟨hschema, hf⟩ <;>
    rcases Scan.path_of_mem_generate hcode hg with ⟨m, hm, hg⟩ | ⟨hschema', hg⟩ <;>
    rw [hf, hg] at h ⊢
  · rw [steps_codePath (hplain n hn), steps_codePath (hplain m hm)] at h
    exact String.toList_injective (List.singleton_inj.1 h)
  · have hends := endsIn_codePath n
    rw [h] at hends
    exact absurd (hends.unique (endsIn_manifestPath ho hschema')) (by decide)
  · have hends := endsIn_codePath m
    rw [← h] at hends
    exact absurd (hends.unique (endsIn_manifestPath ho hschema)) (by decide)

/-- With valid options and without slashes in the names of models, all files have places of their
own. -/
theorem nodup_of_generate {s : Scan} {o : Options} {code : GeneratedCode} {t : Tree}
    (ho : o.fault? = none) (hcode : s.generate o = .ok code) (ht : build code.files = .ok t)
    (hnames : ∀ m ∈ s.emittedModels, '/' ∉ m.2.name.toList ∧ '\\' ∉ m.2.name.toList)
    (directory : String) : (t.files.map fun f => f.1.diskPath directory).Nodup := by
  have hplace : ∀ f ∈ t.files, ∀ g ∈ t.files,
      f.1.diskPath directory = g.1.diskPath directory → f = g := by
    intro f hf g hg he
    obtain ⟨f', hf', hfparse⟩ := parse_of_mem_build ht hf
    obtain ⟨g', hg', hgparse⟩ := parse_of_mem_build ht hg
    have hsegments := congrArg Disk.names he
    rw [FilePath.names_diskPath, FilePath.names_diskPath, List.append_cancel_left_eq,
      FilePath.segments_of_parse hfparse, FilePath.segments_of_parse hgparse] at hsegments
    have hsteps := List.map_injective_iff.2 (fun _ _ h => String.ofList_injective h) hsegments
    rw [path_eq_of_steps_eq ho hcode hnames hf' hg' hsteps, hgparse] at hfparse
    have hfirst := Except.ok.inj hfparse
    exact List.inj_on_of_nodup_map t.distinct (mem_files.1 hf) (mem_files.1 hg) hfirst.symm
  have hnodup : t.files.Nodup :=
    (Text.sortByText_perm _ _).nodup_iff.2 (t.distinct.of_map _)
  exact hnodup.map_on hplace

end Tree

end ApiClient
