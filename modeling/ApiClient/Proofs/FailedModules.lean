import ApiClient.Proofs.LoadingOrder
import ApiClient.Proofs.Runs

/-!
# Modules that fail

A document can be refused, and a file can fail before its document is offered. Either way the other
modules are loaded as if it had never been there. Of sound files that give the same module the first
one in path order is loaded.

* `Refuses`: what is wrong with a document that is refused.
* `sound?`, `loadedFiles`: what a file has to offer; the files that are loaded.
* `Disk.without`: a disk without some of its files.
* `Accounts`: every file is loaded as one module or has one entry among the skipped ones.

Results:
* `addEach_accepted`: documents that are refused leave no trace in the loader.
* `pending_addFiles`, `skipped_addFiles`: each file of a directory is queued or noted.
* `loadDirectory_isolates`: failures do not affect what else is loaded.
-/

namespace ApiClient

open Disk

namespace Loader

variable {l : Loader} {p : String × ModuleDocument} {calls : List (String × ModuleDocument)}

/-! ## Refused documents -/

/-- The module is queued already, a type has no name, or two types have the same one. -/
def Refuses (l : Loader) (p : String × ModuleDocument) : Prop :=
  moduleOf p ∈ l.pending.map (·.1) ∨ (∃ t ∈ p.2.types, Text.isBlankText t.name = true) ∨
    ¬ (p.2.types.map fun t => (t.space, t.name)).Nodup

theorem refuses_iff : l.Refuses p ↔ ¬ l.Accepts p := by
  have hfault : typesFault [] p.2.types = none ↔
      (∀ t ∈ p.2.types, Text.isBlankText t.name = false) ∧
        (p.2.types.map fun t => (t.space, t.name)).Nodup := by
    simp [typesFault_eq_none_iff]
  have hblank : (∃ t ∈ p.2.types, Text.isBlankText t.name = true) ↔
      ¬ ∀ t ∈ p.2.types, Text.isBlankText t.name = false := by
    simp
  rw [Refuses, Accepts, hfault, hblank]
  tauto

theorem add_eq_error_iff : (∃ e, l.add p.1 p.2 = .error e) ↔ l.Refuses p := by
  rw [refuses_iff]
  constructor
  · rintro ⟨e, he⟩ haccepts
    rw [add, show (queue p.1 p.2).run.run l = _ from outcome_of_accepts haccepts] at he
    cases he
  · intro hrefused
    obtain ⟨e, he⟩ := outcome_of_not_accepts hrefused
    exact ⟨e, by rw [add, show (queue p.1 p.2).run.run l = _ from he]⟩

theorem addEach_accepted (l : Loader) (calls : List (String × ModuleDocument)) :
    l.addEach (l.accepted calls) = l.addEach calls := by
  induction calls generalizing l with
  | nil => rfl
  | cons p calls ih =>
    change _ = (l.after p).addEach calls
    rw [← ih (l.after p)]
    by_cases hp : l.Accepts p
    · rw [accepted_of_accepts hp]
      rfl
    · rw [accepted_of_not_accepts hp, after_of_not_accepts hp]

/-- None of the documents that are left is refused. -/
theorem accepted_accepted (l : Loader) (calls : List (String × ModuleDocument)) :
    l.accepted (l.accepted calls) = l.accepted calls := by
  induction calls generalizing l with
  | nil => rfl
  | cons p calls ih =>
    by_cases hp : l.Accepts p
    · rw [accepted_of_accepts hp, accepted_of_accepts hp, ih]
    · rw [accepted_of_not_accepts hp, after_of_not_accepts hp, ih]

/-! ## Files -/

variable {d d' : Disk} {path : String}

/-- The document of a file with its module, if it can be read and nothing is wrong with its
types. -/
def sound? (d : Disk) (path : String) : Option (String × ModuleDocument) :=
  match readDocument d path with
  | .ok document =>
    if typesFault [] document.types = none then
      some (moduleName (fallbackName path) document, document)
    else none
  | .error _ => none

/-- The files that are loaded after the named modules: of every other module the first sound
file. -/
def loadedFiles (d : Disk) (modules : List String) (paths : List String) :
    List (String × String × ModuleDocument) :=
  distinctBy (·.2.1) modules (paths.filterMap fun path => (sound? d path).map (path, ·))

theorem addFile_of_sound {q : String × ModuleDocument} (hq : sound? d path = some q)
    (hnew : q.1 ∉ l.pending.map (·.1)) :
    l.addFile d path = l.push q := by
  unfold sound? at hq
  split at hq
  · rename_i document hread
    obtain ⟨hfault, rfl⟩ := Option.ite_none_right_eq_some.1 hq |>.imp_right Option.some.inj
    have haccepts : l.Accepts (fallbackName path, document) := ⟨hnew, hfault⟩
    have hadd : (tryAddFile d path).run.run l =
        (.ok (), l.push (queued (fallbackName path, document))) := by
      rw [tryAddFile, hread]
      exact outcome_of_accepts haccepts
    rw [addFile, hadd]
    rfl
  · simp at hq

/-- A file that fails, or whose module is queued already, is noted. -/
theorem addFile_of_not_sound (h : ∀ q, sound? d path = some q → q.1 ∈ l.pending.map (·.1)) :
    ∃ reason, l.addFile d path = { l with skipped := l.skipped ++ [⟨path, reason⟩] } := by
  have hfails : ∃ e, (tryAddFile d path).run.run l = (.error e, l) := by
    unfold tryAddFile
    cases hread : readDocument d path with
    | error e => exact ⟨e, rfl⟩
    | ok document =>
      have hrefused : ¬ l.Accepts (fallbackName path, document) := by
        rintro ⟨hnew, hfault⟩
        refine hnew (h (moduleName (fallbackName path) document, document) ?_)
        simp only [sound?, hread]
        exact if_pos hfault
      exact outcome_of_not_accepts hrefused
  obtain ⟨e, he⟩ := hfails
  exact ⟨e.message, by rw [addFile, he]⟩

/-- What becomes of the first file. -/
theorem loadedFiles_cons (d : Disk) (l : Loader) (path : String) (paths : List String) :
    (∃ q, l.addFile d path = l.push q ∧
      loadedFiles d (l.pending.map (·.1)) (path :: paths) =
        (path, q) :: loadedFiles d ((l.addFile d path).pending.map (·.1)) paths) ∨
    (∃ reason, l.addFile d path = { l with skipped := l.skipped ++ [⟨path, reason⟩] } ∧
      loadedFiles d (l.pending.map (·.1)) (path :: paths) =
        loadedFiles d ((l.addFile d path).pending.map (·.1)) paths) := by
  cases hq : sound? d path with
  | none =>
    have hfails : ∀ q, sound? d path = some q → q.1 ∈ l.pending.map (·.1) := by simp [hq]
    obtain ⟨reason, hadd⟩ := addFile_of_not_sound hfails
    refine .inr ⟨reason, hadd, ?_⟩
    rw [hadd, loadedFiles, List.filterMap_cons, hq]
    rfl
  | some q =>
    by_cases hnew : q.1 ∈ l.pending.map (·.1)
    · have hfails : ∀ q, sound? d path = some q → q.1 ∈ l.pending.map (·.1) := by
        simpa [hq] using hnew
      obtain ⟨reason, hadd⟩ := addFile_of_not_sound hfails
      refine .inr ⟨reason, hadd, ?_⟩
      rw [hadd, loadedFiles, List.filterMap_cons, hq, Option.map_some, distinctBy, if_pos hnew]
      rfl
    · have hadd := addFile_of_sound hq hnew
      refine .inl ⟨q, hadd, ?_⟩
      rw [hadd, loadedFiles, List.filterMap_cons, hq, Option.map_some, distinctBy, if_neg hnew,
        loadedFiles]
      refine congrArg _ (distinctBy_congr (fun module => ?_) _)
      simp [or_comm]

theorem pending_addFiles (d : Disk) (l : Loader) (paths : List String) :
    (paths.foldl (·.addFile d) l).pending =
      l.pending ++ (loadedFiles d (l.pending.map (·.1)) paths).map (·.2) := by
  induction paths generalizing l with
  | nil => simp [loadedFiles]
  | cons path paths ih =>
    rw [List.foldl_cons, ih]
    rcases loadedFiles_cons d l path paths with ⟨q, hadd, hfiles⟩ | ⟨reason, hadd, hfiles⟩
    · rw [hfiles, hadd]
      simp
    · rw [hfiles, hadd]

/-- All files are loaded or noted. -/
theorem skipped_addFiles (d : Disk) (l : Loader) (paths : List String) : ∃ noted,
    (paths.foldl (·.addFile d) l).skipped = l.skipped ++ noted ∧
      ((loadedFiles d (l.pending.map (·.1)) paths).map (·.1) ++ noted.map (·.origin)).Perm
        paths := by
  induction paths generalizing l with
  | nil => exact ⟨[], by simp [loadedFiles]⟩
  | cons path paths ih =>
    obtain ⟨noted, hskipped, hperm⟩ := ih (l.addFile d path)
    rw [List.foldl_cons]
    rcases loadedFiles_cons d l path paths with ⟨q, hadd, hfiles⟩ | ⟨reason, hadd, hfiles⟩
    · refine ⟨noted, by rw [hskipped, hadd, skipped_push], ?_⟩
      rw [hfiles]
      exact hperm.cons path
    · refine ⟨⟨path, reason⟩ :: noted, by rw [hskipped, hadd]; simp, ?_⟩
      rw [hfiles]
      exact List.perm_middle.trans (hperm.cons path)

theorem map_module_loadedFiles_nodup (d : Disk) (modules paths : List String) :
    ((loadedFiles d modules paths).map (·.2.1)).Nodup :=
  map_distinctBy_nodup _ _ _

theorem sound?_of_mem_loadedFiles {modules paths : List String}
    {f : String × String × ModuleDocument} (h : f ∈ loadedFiles d modules paths) :
    sound? d f.1 = some f.2 := by
  obtain ⟨path, _, hf⟩ := List.mem_filterMap.1 (mem_distinctBy h).1
  obtain ⟨q, hq, rfl⟩ := Option.map_eq_some_iff.1 hf
  exact hq

/-- Loaded alone, and from a disk on which they are the same, the files are all loaded again. -/
theorem loadedFiles_perm {paths paths' : List String}
    (hsound : ∀ path ∈ paths', sound? d' path = sound? d path)
    (hpaths : paths'.Perm ((loadedFiles d [] paths).map (·.1))) :
    (loadedFiles d' [] paths').Perm (loadedFiles d [] paths) := by
  have hsame : (paths'.filterMap fun path => (sound? d' path).map (path, ·)) =
      paths'.filterMap fun path => (sound? d path).map (path, ·) :=
    List.filterMap_congr fun path hpath => by rw [hsound path hpath]
  have hloaded : ((loadedFiles d [] paths).map (·.1)).filterMap
      (fun path => (sound? d path).map (path, ·)) = loadedFiles d [] paths := by
    rw [List.filterMap_map]
    refine (List.filterMap_congr fun f hf => ?_).trans List.filterMap_some
    rw [Function.comp_apply, sound?_of_mem_loadedFiles hf, Option.map_some]
  have hperm := hpaths.filterMap fun path => (sound? d path).map (path, ·)
  rw [hloaded, ← hsame] at hperm
  have hmodules := (hperm.map (·.2.1)).nodup_iff.2 (map_module_loadedFiles_nodup d [] paths)
  rw [loadedFiles, distinctBy_eq_self hmodules (by simp)]
  exact hperm

end Loader

/-! ## Directories -/

namespace Disk

/-- The disk without the entries of some locations. -/
def without (d : Disk) (ls : List Location) : Disk where
  entries := d.entries.filter fun e => e.1 ∉ ls
  distinct := d.distinct.sublist (List.filter_sublist.map _)

variable {d : Disk} {ls : List Location}

theorem get?_without {l : Location} (hl : l ≠ []) :
    (d.without ls).get? l = if l ∈ ls then none else d.get? l := by
  refine Option.ext fun n => ?_
  rw [get?_eq_some_iff hl, without, List.mem_filter, ← get?_eq_some_iff hl]
  split <;> simp_all

theorem without_keepsDirectories (h : ∀ l ∈ ls, d.get? l ≠ some .directory) :
    d.KeepsDirectories (d.without ls) := by
  intro l hl
  by_cases hnil : l = []
  · rw [hnil, get?_nil]
  · rw [get?_without hnil, if_neg fun hmem => h l hmem hl]
    exact hl

theorem file?_without (l : Location) :
    (d.without ls).file? l = if l ∈ ls then none else d.file? l := by
  unfold file?
  by_cases hnil : l = []
  · simp [hnil]
  · rw [get?_without hnil]
    by_cases hmem : l ∈ ls <;> simp [hmem]

theorem WellFormed.without (hd : d.WellFormed) (h : ∀ l ∈ ls, d.get? l ≠ some .directory) :
    (d.without ls).WellFormed := by
  have hkept : ∀ l name, (d.without ls).get? (l ++ [name]) ≠ none →
      d.get? (l ++ [name]) ≠ none := by
    intro l name hne
    rw [get?_without (by simp)] at hne
    exact fun hnone => hne (by rw [hnone, ite_self])
  refine ⟨fun l name hne => hd.isName l name (hkept l name hne), fun l name hne => ?_⟩
  exact without_keepsDirectories h l (hd.parent l name (hkept l name hne))

end Disk

namespace Loader

variable {d' : Disk} {directory path : String} {ps : List FilePattern} {m : LoadedModules}

/-- The paths of the module files of a directory. -/
def modulePaths (d : Disk) (directory : String) (ps : List FilePattern) : List String :=
  (moduleNames d directory ps).map (Path.join directory)

/-- Every file is loaded as one module or has one entry among the skipped ones, and what is loaded
is what the loaded files have. -/
structure Accounts (d : Disk) (paths : List String) (m : LoadedModules) : Prop where
  nodup : paths.Nodup
  files : ((loadedFiles d [] paths).map (·.1) ++ m.skipped.map (·.origin)).Perm paths
  modules_nodup : m.modules.Nodup
  modules : m.modules.Perm ((loadedFiles d [] paths).map (·.2.1))
  loaded :
    m = { load (.ofPending ((loadedFiles d [] paths).map (·.2))) with skipped := m.skipped }

/-- The places of the skipped files. -/
def skippedPlaces (m : LoadedModules) : List Location :=
  m.skipped.map fun s => location s.origin

theorem isName_of_mem_moduleNames (hd : d.WellFormed) {name : String}
    (h : name ∈ moduleNames d directory ps) : IsName name := by
  obtain ⟨_, c, hc⟩ := mem_moduleNames.1 h
  refine hd.isName (location directory) name ?_
  rw [file?_eq_some_iff.1 hc]
  simp

/-- The path of a module file is that of a name in the directory, and leads to a file. -/
theorem mem_modulePaths (hd : d.WellFormed) : path ∈ modulePaths d directory ps ↔
    ∃ name, IsName name ∧ isModuleName ps name = true ∧ path = Path.join directory name ∧
      location path = location directory ++ [name] ∧ ∃ c, d.file? (location path) = some c := by
  rw [modulePaths, List.mem_map]
  constructor
  · rintro ⟨name, hname, rfl⟩
    obtain ⟨hmodule, c, hc⟩ := mem_moduleNames.1 hname
    have hisName := isName_of_mem_moduleNames hd hname
    have hlocation := hisName.location_join directory
    exact ⟨name, hisName, hmodule, rfl, hlocation, c, by rw [hlocation, hc]⟩
  · rintro ⟨name, _, hmodule, rfl, hlocation, c, hc⟩
    exact ⟨name, mem_moduleNames.2 ⟨hmodule, c, by rw [← hlocation, hc]⟩, rfl⟩

theorem location_injOn_modulePaths (hd : d.WellFormed) {path' : String}
    (h : path ∈ modulePaths d directory ps) (h' : path' ∈ modulePaths d directory ps)
    (he : location path = location path') : path = path' := by
  obtain ⟨name, _, _, rfl, hname, _⟩ := (mem_modulePaths hd).1 h
  obtain ⟨name', _, _, rfl, hname', _⟩ := (mem_modulePaths hd).1 h'
  rw [hname, hname'] at he
  rw [List.singleton_inj.1 (List.append_cancel_left he)]

theorem modulePaths_nodup (hd : d.WellFormed) (directory : String) (ps : List FilePattern) :
    (modulePaths d directory ps).Nodup := by
  have hnames : (moduleNames d directory ps).Nodup :=
    ((Text.sortByText_perm _ _).nodup_iff).2 ((fileNames_nodup _ _).filter _)
  refine hnames.map_on fun name hname name' hname' he => ?_
  have hlocation := congrArg location he
  rw [(isName_of_mem_moduleNames hd hname).location_join,
    (isName_of_mem_moduleNames hd hname').location_join] at hlocation
  exact List.singleton_inj.1 (List.append_cancel_left hlocation)

theorem accounts_addFiles (d : Disk) {paths : List String} (h : paths.Nodup) :
    Accounts d paths (paths.foldl (·.addFile d) Loader.empty).load := by
  have hpending := pending_addFiles d .empty paths
  obtain ⟨noted, hskipped, hfiles⟩ := skipped_addFiles d .empty paths
  rw [show Loader.empty.skipped = [] from rfl, List.nil_append] at hskipped
  rw [show Loader.empty.pending = [] from rfl, List.nil_append] at hpending
  have hmodules : (paths.foldl (·.addFile d) Loader.empty).load.modules.Perm
      ((loadedFiles d [] paths).map (·.2.1)) := by
    have hsorted := (Text.sortByText_perm (·.1) ((loadedFiles d [] paths).map (·.2))).map (·.1)
    rw [List.map_map] at hsorted
    rw [load, sorted, hpending]
    exact hsorted
  refine ⟨h, ?_, hmodules.nodup_iff.2 (map_module_loadedFiles_nodup d [] paths), hmodules, ?_⟩
  · change (_ ++ (paths.foldl (·.addFile d) Loader.empty).skipped.map _).Perm _
    rw [hskipped]
    exact hfiles
  · simp only [load, types, sorted, hpending]
    rfl

/-- On a disk where they are the same, the loaded files alone are loaded to the same. -/
theorem load_addFiles_again {paths paths' : List String} (hm : Accounts d paths m)
    (hsound : ∀ path ∈ paths', sound? d' path = sound? d path)
    (hpaths : paths'.Perm ((loadedFiles d [] paths).map (·.1))) :
    (paths'.foldl (·.addFile d') Loader.empty).load = { m with skipped := [] } := by
  have hloaded := loadedFiles_perm hsound hpaths
  have hnodup := hpaths.nodup_iff.2 (List.nodup_append.1 (hm.files.nodup_iff.2 hm.nodup)).1
  have hagain := accounts_addFiles d' hnodup
  generalize paths'.foldl (·.addFile d') Loader.empty = l at hagain
  have hskipped : l.load.skipped = [] := by
    have hlength := hagain.files.length_eq
    rw [List.length_append, List.length_map, hloaded.length_eq, hpaths.length_eq] at hlength
    simpa using hlength
  have hmodules : (((loadedFiles d' [] paths').map (·.2)).map (·.1)).Nodup := by
    rw [List.map_map]
    exact map_module_loadedFiles_nodup d' [] paths'
  have hsame : load (ofPending ((loadedFiles d' [] paths').map (·.2))) =
      load (ofPending ((loadedFiles d [] paths).map (·.2))) :=
    load_eq_of_perm (hloaded.map Prod.snd) hmodules rfl
  rw [hagain.loaded, hskipped, hsame]
  conv_rhs => rw [hm.loaded]

theorem not_directory_of_mem_skippedPlaces (hd : d.WellFormed)
    (hm : Accounts d (modulePaths d directory ps) m) :
    ∀ l ∈ skippedPlaces m, d.get? l ≠ some .directory := by
  intro l hl
  obtain ⟨s, hs, rfl⟩ := List.mem_map.1 hl
  have hpath := hm.files.mem_iff.1 (List.mem_append_right _ (List.mem_map_of_mem hs))
  obtain ⟨_, _, _, _, _, c, hc⟩ := (mem_modulePaths hd).1 hpath
  rw [file?_eq_some_iff.1 hc]
  simp

/-- Without the skipped files those that are left are the loaded ones. -/
theorem modulePaths_without (hd : d.WellFormed)
    (hm : Accounts d (modulePaths d directory ps) m) :
    (modulePaths (d.without (skippedPlaces m)) directory ps).Perm
      ((loadedFiles d [] (modulePaths d directory ps)).map (·.1)) := by
  have hd' := hd.without (not_directory_of_mem_skippedPlaces hd hm)
  obtain ⟨hloaded, _, hdisjoint⟩ := List.nodup_append.1 (hm.files.nodup_iff.2 hm.nodup)
  have hplace : ∀ path ∈ modulePaths d directory ps,
      (location path ∈ skippedPlaces m ↔ path ∈ m.skipped.map (·.origin)) := by
    intro path hpath
    rw [skippedPlaces, List.mem_map, List.mem_map]
    refine exists_congr fun s => and_congr_right fun hs => ⟨fun he => ?_, fun he => by rw [he]⟩
    have hs := hm.files.mem_iff.1 (List.mem_append_right _ (List.mem_map_of_mem hs))
    exact location_injOn_modulePaths hd hs hpath he
  have hleft : ∀ path, path ∈ modulePaths (d.without (skippedPlaces m)) directory ps ↔
      path ∈ modulePaths d directory ps ∧ location path ∉ skippedPlaces m := by
    intro path
    simp only [mem_modulePaths hd, mem_modulePaths hd', file?_without]
    constructor
    · rintro ⟨name, hname, hmodule, rfl, hlocation, c, hc⟩
      obtain ⟨hkept, hc⟩ := Option.ite_none_left_eq_some.1 hc
      exact ⟨⟨name, hname, hmodule, rfl, hlocation, c, hc⟩, hkept⟩
    · rintro ⟨⟨name, hname, hmodule, rfl, hlocation, c, hc⟩, hkept⟩
      exact ⟨name, hname, hmodule, rfl, hlocation, c, by rw [if_neg hkept, hc]⟩
  refine (List.perm_ext_iff_of_nodup (modulePaths_nodup hd' _ _) hloaded).2 fun path => ?_
  rw [hleft]
  constructor
  · rintro ⟨hpath, hkept⟩
    rw [hplace path hpath] at hkept
    exact (List.mem_append.1 (hm.files.mem_iff.2 hpath)).resolve_right hkept
  · intro hmem
    have hpath := hm.files.mem_iff.1 (List.mem_append_left _ hmem)
    refine ⟨hpath, fun hskipped => ?_⟩
    exact hdisjoint _ hmem _ ((hplace path hpath).1 hskipped) rfl

/-- What is left reads as before. -/
theorem sound?_without (hd : d.WellFormed) (hdirectory : d.isDirectory directory = true)
    (hm : Accounts d (modulePaths d directory ps) m) :
    ∀ path ∈ modulePaths (d.without (skippedPlaces m)) directory ps,
      sound? (d.without (skippedPlaces m)) path = sound? d path := by
  intro path hpath
  have hfiles := not_directory_of_mem_skippedPlaces hd hm
  obtain ⟨name, hname, _, rfl, hlocation, c, hc⟩ := (mem_modulePaths (hd.without hfiles)).1 hpath
  have hc' := hc
  rw [file?_without] at hc'
  obtain ⟨_, hc'⟩ := Option.ite_none_left_eq_some.1 hc'
  rw [hlocation] at hc hc'
  have hread := readText_join_congr hname hdirectory
    ((without_keepsDirectories hfiles).isDirectory hdirectory) hc' hc
  simp only [sound?, readDocument, hread]

end Loader

/-- A refused document leaves the loader as it was. A directory that exists is loaded, whatever its
module files hold: each of them is loaded or skipped, and the loaded ones are loaded to the same
without the skipped ones. -/
theorem loadDirectory_isolates {d : Disk} {directory : String} {patterns : List String}
    {ps : List FilePattern} (hd : d.WellFormed) (hdirectory : d.isDirectory directory = true)
    (hps : filePatterns patterns = .ok ps) :
    (∀ (l : Loader) (calls : List (String × ModuleDocument)),
      (∀ p, (∃ e, l.add p.1 p.2 = .error e) ↔ l.Refuses p) ∧
      (∀ p, l.Refuses p → l.after p = l) ∧
      l.accepted (l.accepted calls) = l.accepted calls ∧
      (l.addEach (l.accepted calls)).load = (l.addEach calls).load) ∧
    ∃ m, loadDirectory d directory patterns = .ok m ∧
      Loader.Accounts d (Loader.modulePaths d directory ps) m ∧
      loadDirectory (d.without (Loader.skippedPlaces m)) directory patterns =
        .ok { m with skipped := [] } := by
  constructor
  · intro l calls
    refine ⟨fun p => Loader.add_eq_error_iff, fun p hp => ?_, l.accepted_accepted calls, ?_⟩
    · exact Loader.after_of_not_accepts (Loader.refuses_iff.1 hp)
    · rw [l.addEach_accepted]
  · have hm := Loader.accounts_addFiles d (Loader.modulePaths_nodup hd directory ps)
    have hfiles := Loader.not_directory_of_mem_skippedPlaces hd hm
    refine ⟨_, loadDirectory_eq_ok.2 ⟨hdirectory, ps, hps, rfl⟩, hm, ?_⟩
    refine loadDirectory_eq_ok.2
      ⟨(without_keepsDirectories hfiles).isDirectory hdirectory, ps, hps, ?_⟩
    exact (Loader.load_addFiles_again hm (Loader.sound?_without hd hdirectory hm)
      (Loader.modulePaths_without hd hm)).symm

/-- A document that only names its module. -/
def shopModule : String := "\x7b\"module\": \"Shop\"\x7d"

/-- A directory with two files of one module and one that is cut off. -/
def clashDisk : Disk where
  entries := [(["a.client.json"], .file shopModule.toUTF8),
    (["b.client.json"], .file shopModule.toUTF8),
    (["c.client.json"], .file "\x7b".toUTF8)]
  distinct := by decide

theorem clashDisk_wellFormed : clashDisk.WellFormed := by
  refine .of_entries fun e he => ?_
  simp only [clashDisk, List.mem_cons, List.not_mem_nil, or_false] at he
  rcases he with rfl | rfl | rfl
  · exact ⟨[], "a.client.json", rfl, by decide, rfl⟩
  · exact ⟨[], "b.client.json", rfl, by decide, rfl⟩
  · exact ⟨[], "c.client.json", rfl, by decide, rfl⟩

theorem modulePaths_clashDisk : Loader.modulePaths clashDisk "/" [⟨"*.client.json"⟩] =
    ["/a.client.json", "/b.client.json", "/c.client.json"] := by
  have hnames : (clashDisk.fileNames (location "/")).filter (isModuleName [⟨"*.client.json"⟩]) =
      ["a.client.json", "b.client.json", "c.client.json"] := by
    decide +kernel
  rw [Loader.modulePaths, moduleNames, hnames, Text.sortByText,
    List.mergeSort_of_pairwise (by decide +kernel)]
  decide +kernel

/-- A file right in the root directory is read. -/
theorem readText_of_file? {d : Disk} {name path text : String} (hname : IsName name)
    (hpath : Path.join "/" name = path) (husual : IsUsual path name)
    (h : d.file? [name] = some text.toUTF8) : d.readText path = .ok text := by
  have hroot : location "/" = [] := by decide +kernel
  subst hpath
  refine readText_of_read (read_eq_ok.2 ⟨_, place_join hname (isDirectory_root d) husual, ?_,
    hname.getLast?_join _⟩)
  rw [hroot]
  exact h

theorem ofJson_shopModule : ModuleDocument.ofJson shopModule = .ok ⟨some "Shop", []⟩ := by
  have hread : (ModuleDocument.ofJson shopModule).toOption.map
      (fun document => (document.module, document.types.isEmpty)) = some (some "Shop", true) := by
    decide +kernel
  obtain ⟨⟨module, types⟩, hok, hparts⟩ := Option.map_eq_some_iff.1 hread
  obtain ⟨rfl, htypes⟩ := Prod.mk.inj hparts
  obtain rfl : types = [] := List.isEmpty_iff.1 htypes
  exact eq_ok_of_toOption hok

/-- Of the two sound files the first one is loaded. -/
theorem loadedFiles_clashDisk :
    Loader.loadedFiles clashDisk [] ["/a.client.json", "/b.client.json", "/c.client.json"] =
      [("/a.client.json", "Shop", ⟨some "Shop", []⟩)] := by
  have hbroken : (ModuleDocument.ofJson "\x7b").isOk = false := by decide +kernel
  have ha : clashDisk.readText "/a.client.json" = .ok shopModule :=
    readText_of_file? (by decide : IsName "a.client.json") (by decide +kernel)
      (by decide +kernel) rfl
  have hb : clashDisk.readText "/b.client.json" = .ok shopModule :=
    readText_of_file? (by decide : IsName "b.client.json") (by decide +kernel)
      (by decide +kernel) rfl
  have hc : clashDisk.readText "/c.client.json" = .ok "\x7b" :=
    readText_of_file? (by decide : IsName "c.client.json") (by decide +kernel)
      (by decide +kernel) rfl
  have hsounda : Loader.sound? clashDisk "/a.client.json" = some ("Shop", ⟨some "Shop", []⟩) := by
    simp only [Loader.sound?, Loader.readDocument, ha, ofJson_shopModule]
    rfl
  have hsoundb : Loader.sound? clashDisk "/b.client.json" = some ("Shop", ⟨some "Shop", []⟩) := by
    simp only [Loader.sound?, Loader.readDocument, hb, ofJson_shopModule]
    rfl
  have hsoundc : Loader.sound? clashDisk "/c.client.json" = none := by
    cases hfault : ModuleDocument.ofJson "\x7b" with
    | ok document => simp [hfault, Except.isOk, Except.toBool] at hbroken
    | error fault => simp only [Loader.sound?, Loader.readDocument, hc, hfault]
  rw [Loader.loadedFiles, List.filterMap_cons, List.filterMap_cons, List.filterMap_cons, hsounda,
    hsoundb, hsoundc]
  rfl

theorem loadDirectory_isolates_clashDisk :
    clashDisk.WellFormed ∧ clashDisk.isDirectory "/" = true ∧
      filePatterns ["*.client.json"] = .ok [⟨"*.client.json"⟩] ∧
      ∃ m, loadDirectory clashDisk "/" ["*.client.json"] = .ok m ∧ m.modules = ["Shop"] ∧
        (m.skipped.map (·.origin)).Perm ["/b.client.json", "/c.client.json"] ∧
        loadDirectory (clashDisk.without (Loader.skippedPlaces m)) "/" ["*.client.json"] =
          .ok { m with skipped := [] } := by
  have hdirectory := isDirectory_root clashDisk
  obtain ⟨-, m, hload, haccounts, halone⟩ :=
    loadDirectory_isolates clashDisk_wellFormed hdirectory filePatterns_client
  have hmodules := haccounts.modules
  have hfiles := haccounts.files
  rw [modulePaths_clashDisk, loadedFiles_clashDisk] at hmodules hfiles
  exact ⟨clashDisk_wellFormed, hdirectory, filePatterns_client, m, hload,
    List.perm_singleton.1 hmodules, hfiles.cons_inv, halone⟩

end ApiClient
