import ApiClient.Proofs.Disk.Confinement
import ApiClient.Run

/-!
# Runs of the generator

A run reads the source directory, and what it reads there are the module files alone. All that it
changes on disk is done by the sync at its end.

Results:
* `loadDirectory_eq_ok`: what a directory is loaded from.
* `loadDirectory_congr`: it loads the same from disks that agree on the module files.
* `scan_of_moduleNames`: what a run scans.
* `generate_succeeds`: a run succeeds exactly if each of its parts does.
* `generate_after`: a run changes nothing, or what its sync changes.
-/

namespace ApiClient

open Disk

variable {d d' : Disk} {directory : String} {patterns : List String} {ps : List FilePattern}

/-! ## Module files -/

/-- One of the patterns matches a name. -/
def isModuleName (ps : List FilePattern) (name : String) : Bool :=
  ps.any (·.covers name)

/-- The names of the module files of a directory, sorted. -/
def moduleNames (d : Disk) (directory : String) (ps : List FilePattern) : List String :=
  Text.sortByText id ((d.fileNames (location directory)).filter (isModuleName ps))

theorem mem_moduleNames {name : String} : name ∈ moduleNames d directory ps ↔
    isModuleName ps name = true ∧ ∃ c, d.file? (location directory ++ [name]) = some c := by
  rw [moduleNames, (Text.sortByText_perm _ _).mem_iff, List.mem_filter, mem_fileNames, and_comm]

/-- The module files of two disks agree. -/
def SameModules (ps : List FilePattern) (directory : String) (d d' : Disk) : Prop :=
  ∀ name, isModuleName ps name = true →
    d'.file? (location directory ++ [name]) = d.file? (location directory ++ [name])

theorem SameModules.moduleNames_eq (h : SameModules ps directory d d') :
    moduleNames d' directory ps = moduleNames d directory ps := by
  refine Text.sortByText_eq_of_perm ?_ fun _ _ _ _ => id
  refine (List.perm_ext_iff_of_nodup ((fileNames_nodup _ _).filter _)
    ((fileNames_nodup _ _).filter _)).2 fun name => ?_
  rw [List.mem_filter, List.mem_filter, mem_fileNames, mem_fileNames]
  exact and_congr_left fun hname => by rw [h name hname]

/-- A directory is loaded from its module files in the order of their names. -/
theorem loadDirectory_eq_ok {l : LoadedModules} : loadDirectory d directory patterns = .ok l ↔
    d.isDirectory directory = true ∧ ∃ ps, filePatterns patterns = .ok ps ∧
      l = (((moduleNames d directory ps).map (Path.join directory)).foldl (·.addFile d)
        Loader.empty).load := by
  rw [loadDirectory, map_eq_ok, moduleFiles]
  by_cases hdirectory : d.isDirectory directory = true
  · obtain ⟨m, hplace, hm⟩ := isDirectory_iff.1 hdirectory
    obtain rfl := place_eq_location hplace
    have hfiles : d.files directory = .ok (d.fileNames (location directory)) :=
      files_eq_ok.2 ⟨_, hplace, hm, rfl⟩
    rw [if_pos hdirectory, hfiles]
    simp only [bind_eq_ok, hdirectory, true_and]
    constructor
    · rintro ⟨paths, ⟨ps, hps, hpaths⟩, rfl⟩
      exact ⟨ps, hps, by rw [← Except.ok.inj hpaths]; rfl⟩
    · rintro ⟨ps, hps, rfl⟩
      exact ⟨_, ⟨ps, hps, rfl⟩, rfl⟩
  · rw [if_neg hdirectory]
    simp [hdirectory]

/-- A path with one more name leads to the same place from the same directory. -/
theorem place_join_congr {name : String} (hname : IsName name)
    (hd : d.isDirectory directory = true) (hd' : d'.isDirectory directory = true) :
    d'.place (Path.join directory name) = d.place (Path.join directory name) := by
  rw [place, place, hname.names_join, List.getLast?_concat, List.dropLast_concat, walk_names hd,
    walk_names hd']

/-- A file of the directory reads the same from disks that agree on it. -/
theorem readText_join_congr {name : String} (hname : IsName name)
    (hd : d.isDirectory directory = true) (hd' : d'.isDirectory directory = true) {c : ByteArray}
    (hfile : d.file? (location directory ++ [name]) = some c)
    (hfile' : d'.file? (location directory ++ [name]) = some c) :
    d'.readText (Path.join directory name) = d.readText (Path.join directory name) := by
  have hfind : d'.find (Path.join directory name) = d.find (Path.join directory name) := by
    rw [find, find, place_join_congr hname hd hd']
    cases hplace : d.place (Path.join directory name) with
    | error => rfl
    | ok l =>
      obtain rfl := (place_eq_location hplace).trans (hname.location_join directory)
      simp only [bind, Except.bind, file?_eq_some_iff.1 hfile, file?_eq_some_iff.1 hfile']
  unfold readText Disk.read
  rw [hfind]

/-- Disks that agree on the module files are loaded the same. -/
theorem loadDirectory_congr (hd : d.WellFormed) (hkeep : d.KeepsDirectories d')
    (hps : filePatterns patterns = .ok ps) (hsame : SameModules ps directory d d')
    {l : LoadedModules} (h : loadDirectory d directory patterns = .ok l) :
    loadDirectory d' directory patterns = .ok l := by
  obtain ⟨hdirectory, ps', hps', rfl⟩ := loadDirectory_eq_ok.1 h
  obtain rfl := Except.ok.inj (hps.symm.trans hps')
  have hdirectory' := hkeep.isDirectory hdirectory
  refine loadDirectory_eq_ok.2 ⟨hdirectory', ps, hps, congrArg Loader.load ?_⟩
  rw [hsame.moduleNames_eq]
  refine List.foldl_ext _ _ _ fun l path hpath => ?_
  obtain ⟨name, hname, rfl⟩ := List.mem_map.1 hpath
  obtain ⟨hmodule, c, hc⟩ := mem_moduleNames.1 hname
  have hisName : IsName name := hd.isName (location directory) name
    (by simp [file?_eq_some_iff.1 hc])
  have hread := readText_join_congr hisName hdirectory hdirectory' hc
    ((hsame name hmodule).trans hc)
  unfold Loader.addFile Loader.tryAddFile Loader.readDocument
  rw [hread]

/-! ## Patterns -/

/-- The default pattern. -/
theorem filePatterns_client : filePatterns ["*.client.json"] = .ok [⟨"*.client.json"⟩] :=
  eq_ok_of_toOption (by decide +kernel)

/-! ## Runs -/

namespace Run

variable {o : Options} {s : Path.Surroundings}

theorem scan_eq_ok {sc : Scan} : scan o s d = .ok sc ↔
    ∃ l, loadDirectory d (o.sourceDirectory s) o.files = .ok l ∧
      sc = .ofModules o.controllerBases l := by
  rw [scan]
  cases loadDirectory d (o.sourceDirectory s) o.files <;> simp [eq_comm]

/-- A scan of the module files with these names. -/
theorem scan_of_moduleNames (names : List String)
    (hd : d.isDirectory (o.sourceDirectory s) = true) (hps : filePatterns o.files = .ok ps)
    (hnames : moduleNames d (o.sourceDirectory s) ps = names) :
    scan o s d = .ok (.ofModules o.controllerBases
      ((names.map (Path.join (o.sourceDirectory s))).foldl (·.addFile d) Loader.empty).load) :=
  scan_eq_ok.2 ⟨_, loadDirectory_eq_ok.2 ⟨hd, ps, hps, by rw [hnames]⟩, rfl⟩

/-- The tree of the files that a run generates from a disk. -/
def Generates (o : Options) (s : Path.Surroundings) (d : Disk) (sc : Scan) (t : Tree) : Prop :=
  scan o s d = .ok sc ∧ ∃ code, sc.generate o = .ok code ∧ Tree.build code.files = .ok t

/-- A run succeeds exactly if a tree is generated and synced. -/
theorem generate_succeeds {report : GenerationReport} :
    Succeeds (generate o s) d report d' ↔ ∃ sc t r, Generates o s d sc t ∧
      Succeeds (t.sync (o.destinationDirectory s)) d r d' ∧ report = .of o.dialect sc r := by
  simp only [generate, succeeds_bind, succeeds_ask, succeeds_settle, succeeds_adapt, succeeds_pure,
    Generates]
  constructor
  · rintro ⟨sc, _, ⟨hscan, rfl⟩, code, _, ⟨hcode, rfl⟩, t, _, ⟨ht, rfl⟩, r, _, hsync, rfl, rfl⟩
    exact ⟨sc, t, r, ⟨hscan, code, hcode, ht⟩, hsync, rfl⟩
  · rintro ⟨sc, t, r, ⟨hscan, code, hcode, ht⟩, hsync, rfl⟩
    exact ⟨sc, d, ⟨hscan, rfl⟩, code, d, ⟨hcode, rfl⟩, t, d, ⟨ht, rfl⟩, r, d', hsync, rfl, rfl⟩

/-- A run changes nothing, or what its sync changes. -/
theorem generate_after (o : Options) (s : Path.Surroundings) (d : Disk) :
    after (generate o s) d = d ∨
      ∃ t : Tree, after (generate o s) d = after (t.sync (o.destinationDirectory s)) d := by
  unfold generate
  rcases after_bind (Disk.ask id (scan o s)) _ d with h | ⟨sc, d₁, hsc, h⟩ <;> rw [h]
  · exact .inl after_ask
  obtain ⟨_, rfl⟩ := succeeds_ask.1 hsc
  rcases after_bind (Disk.settle Failure.generation (sc.generate o)) _ d with
    h | ⟨code, d₂, hcode, h⟩ <;> rw [h]
  · exact .inl after_settle
  obtain ⟨_, rfl⟩ := succeeds_settle.1 hcode
  rcases after_bind (Disk.settle Failure.output (Tree.build code.files)) _ d with
    h | ⟨t, d₃, ht, h⟩ <;> rw [h]
  · exact .inl after_settle
  obtain ⟨_, rfl⟩ := succeeds_settle.1 ht
  rcases after_bind ((t.sync (o.destinationDirectory s)).adapt
    (Failure.sync (o.destinationDirectory s))) _ d with h | ⟨r, d₄, hr, h⟩ <;> rw [h]
  · exact .inr ⟨t, after_adapt⟩
  · exact .inr ⟨t, (succeeds_adapt.1 hr).after_eq.symm⟩

/-- A step after one that succeeded. -/
theorem run_bind_of_succeeds {ε α β : Type} {a : Action ε α} {f : α → Action ε β} {x : α}
    (h : Succeeds a d x d') : (a >>= f).run.run d = (f x).run.run d' := by
  rw [ExceptT.run_bind, StateT.run_bind, show a.run.run d = (.ok x, d') from h]
  rfl

/-- If the paths of the generated files are refused, the run ends there. -/
theorem generate_of_build_error {sc : Scan} {code : GeneratedCode} {fault : OutputFault}
    (hscan : scan o s d = .ok sc) (hcode : sc.generate o = .ok code)
    (hbuild : Tree.build code.files = .error fault) :
    (generate o s).run.run d = (.error (.output fault), d) := by
  unfold generate
  rw [run_bind_of_succeeds (succeeds_ask.2 ⟨hscan, rfl⟩),
    run_bind_of_succeeds (succeeds_settle.2 ⟨hcode, rfl⟩), hbuild]
  rfl

end Run

end ApiClient
