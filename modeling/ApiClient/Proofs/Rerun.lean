import ApiClient.Proofs.GeneratedPaths
import ApiClient.Proofs.Queueing
import Mathlib.Data.List.Permutation

/-!
# Running again

A run reads module files and changes the destination. If the module files are not among what it
changes, the next run generates the same tree, finds it in place and changes nothing.

Results:
* `file?_eq_iff`: which files a sync leaves as they are.
* `isSeparate_of_names`: when generated files have places of their own.
* `leavesModules_iff`: when a run leaves the module files as they are.
* `generate_again`: the next run then changes nothing.
* `not_generate_again_shopDisk`: a run in the source directory removes the module, and the next one
  its files.
-/

namespace ApiClient

open Disk Output

namespace Tree

variable {t : Tree} {directory : String} {d d' : Disk} {l : Location}

/-! ## What a sync changes -/

/-- A name right inside the directory that does not belong to the tree. -/
def IsStale (t : Tree) (directory : String) (l : Location) : Prop :=
  ∃ name, Text.lower name ∉ t.ownedNames ∧ l = location directory ++ [name]

/-- A sync changes the file at a location: it writes one there, or one that is there is replaced or
removed. -/
def Touches (t : Tree) (directory : String) (d : Disk) (l : Location) : Prop :=
  (∃ f ∈ t.files, ¬ UpToDate d directory f ∧ l = target directory f) ∨
    d.file? l ≠ none ∧ (Replaced d directory t.files l ∨ t.IsStale directory l)

/-- What a sync that succeeds leaves. -/
theorem file?_of_sync {r : SyncReport} (hd : d.WellFormed)
    (hdistinct : (t.files.map fun f => f.1.diskPath directory).Nodup)
    (htemporary : ∀ f ∈ t.files, ∀ g ∈ t.files,
      f.1.diskPath directory ≠ temporaryPath (g.1.diskPath directory))
    (h : Succeeds (t.sync directory) d r d') :
    d'.isDirectory directory = true ∧
      (∀ f ∈ t.files,
        f.1.segments ≠ [] ∧ d'.read (f.1.diskPath directory) = .ok f.2.toUTF8) ∧
      (∀ name ∈ d'.fileNames (location directory), Text.lower name ∈ t.ownedNames) ∧
      ∀ l, (∀ f ∈ t.files, l ≠ target directory f) →
        (Replaced d directory t.files l ∨ t.IsStale directory l → d'.file? l = none) ∧
        (¬ (Replaced d directory t.files l ∨ t.IsStale directory l) →
          d'.file? l = d.file? l) := by
  simp only [sync, succeeds_bind, succeeds_adapt, succeeds_ask, succeeds_pure] at h
  obtain ⟨_, d₀, hmake, results, d₁, hfiles, names, _, ⟨hnames, rfl⟩, _, d₂, hremove, rfl, rfl⟩ := h
  obtain ⟨_, hdirectory, hread, hget⟩ :=
    syncFiles_files_spec hd hdistinct htemporary hmake hfiles
  obtain ⟨m, hplace, _, rfl⟩ := files_eq_ok.1 hnames
  obtain rfl := place_eq_location hplace
  have hstale : ∀ name ∈ t.stale (d₁.fileNames (location directory)), IsName name := by
    intro name hname
    have hname := (mem_stale_fileNames hd (fun f hf => (hread f hf).1) hget name).1 hname
    exact isName_of_mem_fileNames hd hname.1
  obtain ⟨hkeep, hread', howned⟩ := removeFiles_stale_spec hstale hread hremove
  refine ⟨hkeep.isDirectory hdirectory, fun f hf => ⟨(hread f hf).1, hread' f hf⟩, howned, ?_⟩
  intro l hl
  have hremoved : d₂.file? l =
      if ∃ name ∈ t.stale (d₁.fileNames (location directory)), l = location directory ++ [name]
      then none else d₁.file? l := by
    unfold file?
    rw [(removeFiles_spec hstale hremove).2]
    by_cases hleft : ∃ name ∈ t.stale (d₁.fileNames (location directory)),
        l = location directory ++ [name]
    · rw [if_pos hleft, if_pos hleft]
    · rw [if_neg hleft, if_neg hleft]
  rw [hremoved]
  refine ⟨fun hgone => ?_, fun hkept => ?_⟩
  · split
    · rfl
    · rename_i hleft
      by_contra hfile
      obtain ⟨c, hc⟩ := Option.ne_none_iff_exists'.1 hfile
      rcases hgone with hreplaced | ⟨name, howned, rfl⟩
      · exact hfile (by rw [hget l hl, if_pos hreplaced])
      · exact hleft ⟨name, mem_stale.2 ⟨mem_fileNames.2 ⟨c, hc⟩, howned⟩, rfl⟩
  · rw [if_neg, hget l hl, if_neg fun h => hkept (.inl h)]
    rintro ⟨name, hname, rfl⟩
    exact hkept (.inr ⟨name, (mem_stale.1 hname).2, rfl⟩)

/-- A sync leaves all files that it does not touch, and no others. -/
theorem file?_eq_iff {r : SyncReport} (hd : d.WellFormed)
    (hdistinct : (t.files.map fun f => f.1.diskPath directory).Nodup)
    (htemporary : ∀ f ∈ t.files, ∀ g ∈ t.files,
      f.1.diskPath directory ≠ temporaryPath (g.1.diskPath directory))
    (h : Succeeds (t.sync directory) d r d') :
    d'.file? l = d.file? l ↔ ¬ t.Touches directory d l := by
  obtain ⟨_, hread, _, hget⟩ := file?_of_sync hd hdistinct htemporary h
  by_cases htarget : ∃ f ∈ t.files, l = target directory f
  -- The place of a generated file is never replaced or removed, so it stays if it was up to date.
  · obtain ⟨f, hf, rfl⟩ := htarget
    have hother : ¬ (Replaced d directory t.files (target directory f) ∨
        t.IsStale directory (target directory f)) := by
      rintro (⟨g, hg, _, he⟩ | ⟨name, howned, he⟩)
      · exact target_ne_temporary (hread g hg).1 (htemporary f hf g hg) he
      · exact ne_target howned f hf he.symm
    have hup : ∀ g ∈ t.files, d'.file? (target directory g) = some g.2.toUTF8 :=
      fun g hg => (upToDate_of_read (hread g hg).2).2
    rw [Touches, or_iff_left fun h => hother h.2, hup f hf]
    constructor
    · rintro he ⟨g, hg, hold, hplace⟩
      refine hold ?_
      rw [UpToDate, ← hplace, ← he, ← hup f hf, hplace, hup g hg]
    · intro hkept
      by_contra hne
      exact hkept ⟨f, hf, fun h => hne h.symm, rfl⟩
  · have hl : ∀ f ∈ t.files, l ≠ target directory f := fun f hf he => htarget ⟨f, hf, he⟩
    obtain ⟨hgone, hkept⟩ := hget l hl
    have hkeeps : ¬ ∃ f ∈ t.files, ¬ UpToDate d directory f ∧ l = target directory f := by
      rintro ⟨f, hf, _, he⟩
      exact hl f hf he
    rw [Touches, or_iff_right hkeeps]
    by_cases hlost : Replaced d directory t.files l ∨ t.IsStale directory l
    · rw [hgone hlost, and_iff_left hlost, not_not, eq_comm]
    · rw [hkept hlost]
      simp [hlost]

/-- If nothing is removed, all files right inside the directory belong to the tree. -/
theorem owned_of_deleted_eq_nil {r : SyncReport} (h : Succeeds (t.sync directory) d r d')
    (hdeleted : r.deleted = []) :
    ∀ name ∈ d'.fileNames (location directory), Text.lower name ∈ t.ownedNames := by
  simp only [sync, succeeds_bind, succeeds_adapt, succeeds_ask, succeeds_pure] at h
  obtain ⟨_, d₀, _, results, d₁, _, names, _, ⟨hnames, rfl⟩, _, d₂, hremove, rfl, rfl⟩ := h
  obtain ⟨m, hplace, _, rfl⟩ := files_eq_ok.1 hnames
  obtain rfl := place_eq_location hplace
  have hstale : t.stale (d₁.fileNames (location directory)) = [] := by
    rw [← List.perm_nil, ← hdeleted]
    exact (Text.sortByText_perm _ _).symm
  rw [hstale] at hremove
  obtain ⟨_, rfl⟩ := succeeds_pure.1 hremove
  intro name hname
  by_contra howned
  exact List.eq_nil_iff_forall_not_mem.1 hstale name (mem_stale.2 ⟨hname, howned⟩)

/-- All that a sync touches is inside the directory. -/
theorem prefix_of_touches (hsegments : ∀ f ∈ t.files, f.1.segments ≠ []) {name : String}
    (h : t.Touches directory d (l ++ [name])) : location directory <+: l := by
  have hinside : ∀ ns, ns ≠ [] → l ++ [name] = location directory ++ ns →
      location directory <+: l := by
    intro ns hne he
    obtain ⟨init, n, rfl⟩ := (List.eq_nil_or_concat' ns).resolve_left hne
    rw [← List.append_assoc] at he
    exact ⟨init, (List.append_inj_left' he rfl).symm⟩
  rcases h with ⟨f, hf, _, he⟩ | ⟨_, ⟨f, hf, _, he⟩ | ⟨m, _, he⟩⟩
  · exact hinside _ (hsegments f hf) he
  · obtain ⟨init, n, hlast⟩ := (List.eq_nil_or_concat' f.1.segments).resolve_left (hsegments f hf)
    rw [temporary_eq hlast] at he
    exact hinside _ (by simp) he
  · exact hinside _ (by simp) he

end Tree

namespace Run

variable {o : Options} {s : Path.Surroundings} {d d' : Disk} {sc : Scan} {t : Tree}

/-! ## Module files -/

/-- The generated files have places of their own in the destination. -/
structure IsSeparate (o : Options) (s : Path.Surroundings) (t : Tree) : Prop where
  distinct : (t.files.map fun f => f.1.diskPath (o.destinationDirectory s)).Nodup
  /-- With valid options this is always so. -/
  not_temporary : o.fault? ≠ none → ∀ f ∈ t.files, ∀ g ∈ t.files,
    f.1.diskPath (o.destinationDirectory s) ≠
      temporaryPath (g.1.diskPath (o.destinationDirectory s))

theorem IsSeparate.ne_temporaryPath (h : IsSeparate o s t) (hgenerates : Generates o s d sc t) :
    ∀ f ∈ t.files, ∀ g ∈ t.files, f.1.diskPath (o.destinationDirectory s) ≠
      temporaryPath (g.1.diskPath (o.destinationDirectory s)) := by
  intro f hf g hg
  by_cases ho : o.fault? = none
  · obtain ⟨_, code, hcode, ht⟩ := hgenerates
    exact Tree.not_temporary_of_generate ho hcode ht hf _ _
  · exact h.not_temporary ho f hf g hg

/-- With valid options only slashes in the names of models can lead two files to one place. -/
theorem isSeparate_of_names (ho : o.fault? = none) (hgenerates : Generates o s d sc t)
    (hnames : ∀ m ∈ sc.emittedModels, '/' ∉ m.2.name.toList ∧ '\\' ∉ m.2.name.toList) :
    IsSeparate o s t := by
  obtain ⟨_, code, hcode, ht⟩ := hgenerates
  exact ⟨Tree.nodup_of_generate ho hcode ht hnames _, fun h => absurd ho h⟩

/-- A run leaves the module files of the source directory as they were. -/
def LeavesModules (o : Options) (s : Path.Surroundings) (d d' : Disk) : Prop :=
  ∀ ps, filePatterns o.files = .ok ps → SameModules ps (o.sourceDirectory s) d d'

/-- A run leaves the module files exactly if it touches no place of one. -/
theorem leavesModules_iff {r : SyncReport} (hd : d.WellFormed) (hgenerates : Generates o s d sc t)
    (hseparate : IsSeparate o s t) (h : Succeeds (t.sync (o.destinationDirectory s)) d r d') :
    LeavesModules o s d d' ↔
      ∀ ps, filePatterns o.files = .ok ps → ∀ name, isModuleName ps name = true →
        ¬ t.Touches (o.destinationDirectory s) d (location (o.sourceDirectory s) ++ [name]) := by
  unfold LeavesModules SameModules
  simp only [Tree.file?_eq_iff hd hseparate.distinct (hseparate.ne_temporaryPath hgenerates) h]

/-- So it does if the source directory is neither the destination nor inside it. -/
theorem leavesModules_of_outside {r : SyncReport} (hd : d.WellFormed)
    (hgenerates : Generates o s d sc t) (hseparate : IsSeparate o s t)
    (h : Succeeds (t.sync (o.destinationDirectory s)) d r d')
    (houtside : ¬ location (o.destinationDirectory s) <+: location (o.sourceDirectory s)) :
    LeavesModules o s d d' := by
  obtain ⟨_, hread, _⟩ :=
    Tree.file?_of_sync hd hseparate.distinct (hseparate.ne_temporaryPath hgenerates) h
  refine (leavesModules_iff hd hgenerates hseparate h).2 fun ps _ name _ htouches => ?_
  exact houtside (Tree.prefix_of_touches (fun f hf => (hread f hf).1) htouches)

/-! ## The next run -/

theorem Generates.unique {sc' : Scan} {t' : Tree} (h : Generates o s d sc t)
    (h' : Generates o s d sc' t') : sc = sc' ∧ t = t' := by
  obtain ⟨hscan, code, hcode, ht⟩ := h
  obtain ⟨hscan', code', hcode', ht'⟩ := h'
  obtain rfl := Except.ok.inj (hscan.symm.trans hscan')
  obtain rfl := Except.ok.inj (hcode.symm.trans hcode')
  exact ⟨rfl, Except.ok.inj (ht.symm.trans ht')⟩

/-- A disk with the same module files gives the same tree. -/
theorem Generates.congr (hd : d.WellFormed) (hkeep : d.KeepsDirectories d')
    (hmodules : LeavesModules o s d d') (h : Generates o s d sc t) : Generates o s d' sc t := by
  obtain ⟨hscan, hcode⟩ := h
  obtain ⟨l, hl, rfl⟩ := scan_eq_ok.1 hscan
  obtain ⟨_, ps, hps, _⟩ := loadDirectory_eq_ok.1 hl
  exact ⟨scan_eq_ok.2 ⟨l, loadDirectory_congr hd hkeep hps (hmodules ps hps) hl, rfl⟩, hcode⟩

/-- If a run leaves the module files as they were, the next one changes nothing. It does leave them
if the source directory is neither the destination nor inside it. -/
theorem generate_again {report : GenerationReport} (hd : d.WellFormed)
    (hs : Path.isAbsolute s.current = true) (hrun : Succeeds (generate o s) d report d')
    (hseparate : ∀ sc t, Generates o s d sc t → IsSeparate o s t) :
    (LeavesModules o s d d' → ∃ report', Succeeds (generate o s) d' report' d' ∧
      report'.written = [] ∧ report'.deleted = []) ∧
    (¬ location (o.destinationDirectory s) <+: location (o.sourceDirectory s) →
      LeavesModules o s d d') := by
  obtain ⟨sc, t, r, hgenerates, hsync, _⟩ := generate_succeeds.1 hrun
  have hseparate := hseparate sc t hgenerates
  refine ⟨fun hmodules => ?_, leavesModules_of_outside hd hgenerates hseparate hsync⟩
  obtain ⟨hdirectory, hread, howned, _⟩ :=
    Tree.file?_of_sync hd hseparate.distinct (hseparate.ne_temporaryPath hgenerates) hsync
  have hkeep : d.KeepsDirectories d' :=
    hsync.after_eq ▸ (Tree.sync_after hd (isAbsolute_destinationDirectory hs o)).1
  have hagain := Tree.sync_of_read hdirectory (fun f hf => (hread f hf).2) howned
  exact ⟨_, generate_succeeds.2 ⟨sc, t, _, hgenerates.congr hd hkeep hmodules, hagain, rfl⟩,
    rfl, rfl⟩

/-! ## A shop -/

/-- A module with an enumeration and a controller that returns it. -/
def shopText : String :=
  "\x7b\"types\": [\x7b\"name\": \"Unit\", \"kind\": \"enum\"\x7d, " ++
    "\x7b\"name\": \"UnitController\", \"base\": \"ApiController\", " ++
    "\"methods\": [\x7b\"name\": \"GetUnit\", \"returns\": \"Unit\"\x7d]\x7d]\x7d"

/-- The document of the module. -/
def shopDocument : ModuleDocument where
  module := none
  types :=
    [{ TypeDocument.shape.blank with name := "Unit", kind := .enumType },
      { TypeDocument.shape.blank with
        name := "UnitController"
        base := some (.named "ApiController" [])
        methods := [⟨"GetUnit", [], [], some (.named "Unit" [])⟩] }]

theorem toList_append₃ {a b c : String} {as bs cs : List Char} (ha : a.toList = as)
    (hb : b.toList = bs) (hc : c.toList = cs) : (a ++ b ++ c).toList = as ++ bs ++ cs := by
  rw [String.toList_append, String.toList_append, ha, hb, hc]

theorem ofJson_shopText : ModuleDocument.ofJson shopText = .ok shopDocument := by
  -- The characters of a literal are known at once, those of the whole text have to be decoded.
  have hchars : shopText.toList = _ :=
    toList_append₃ String.toList_ofList String.toList_ofList String.toList_ofList
  rw [ModuleDocument.ofJson, Json.Reader.run, Json.Outline.scan, hchars]
  cbv

/-- The text of the enumeration. -/
def unitText : String := "export enum Unit \x7b\n\x7d\n"

/-- The text of the list of exports. -/
def indexText : String := "export * from './Unit';\n"

theorem isRelativeText_index : isRelativeText "index.ts".toList = true := by
  decide

theorem hasNoParent_index : hasNoParent "index.ts".toList = true := by
  decide

/-- The generated files. -/
def shopTree : Tree where
  entries := [(⟨"Unit.ts", by decide, by decide⟩, unitText),
    (⟨"index.ts", isRelativeText_index, hasNoParent_index⟩, indexText)]
  distinct := by decide

/-- A disk with the module, its generated files beside it and in another directory, and there a
file that does not belong to them. -/
def shopDisk : Disk where
  entries := [(["in"], .directory), (["in", "shop.client.json"], .file shopText.toUTF8),
    (["in", "Unit.ts"], .file unitText.toUTF8),
    (["in", "index.ts"], .file indexText.toUTF8),
    (["out"], .directory),
    (["out", "Unit.ts"], .file unitText.toUTF8),
    (["out", "index.ts"], .file indexText.toUTF8),
    (["out", "Old.ts"], .file ByteArray.empty)]
  distinct := by decide

theorem shopDisk_wellFormed : shopDisk.WellFormed := by
  refine .of_entries fun e he => ?_
  simp only [shopDisk, List.mem_cons, List.not_mem_nil, or_false] at he
  rcases he with rfl | rfl | rfl | rfl | rfl | rfl | rfl | rfl
  · exact ⟨[], "in", rfl, by decide, rfl⟩
  · exact ⟨["in"], "shop.client.json", rfl, by decide, rfl⟩
  · exact ⟨["in"], "Unit.ts", rfl, by decide, rfl⟩
  · exact ⟨["in"], "index.ts", rfl, by decide, rfl⟩
  · exact ⟨[], "out", rfl, by decide, rfl⟩
  · exact ⟨["out"], "Unit.ts", rfl, by decide, rfl⟩
  · exact ⟨["out"], "index.ts", rfl, by decide, rfl⟩
  · exact ⟨["out"], "Old.ts", rfl, by decide, rfl⟩

/-- The names and paths on the disk. -/
theorem paths_shopDisk {directory : String} (h : directory ∈ ["in", "out"]) :
    (IsName directory ∧ IsUsual (Path.join "/" directory) directory ∧
      location (Path.join "/" directory) = [directory] ∧
      (Options.initial "/in" (Path.join "/" directory)).destinationDirectory ⟨"/", "/"⟩ =
        Path.join "/" directory) ∧
    ∀ name ∈ ["shop.client.json", "Unit.ts", "index.ts", "Old.ts"],
      IsName name ∧ IsUsual (Path.join (Path.join "/" directory) name) name := by
  revert directory
  decide +kernel

theorem isDirectory_shopDisk {name : String} (h : name ∈ ["in", "out"]) :
    shopDisk.isDirectory (Path.join "/" name) = true := by
  obtain ⟨⟨hname, husual, _⟩, _⟩ := paths_shopDisk h
  refine isDirectory_iff.2 ⟨_, place_join hname (isDirectory_root _) husual, ?_⟩
  simp only [List.mem_cons, List.not_mem_nil, or_false] at h
  rcases h with rfl | rfl <;> rfl

theorem read_shopDisk {directory name : String} {c : ByteArray}
    (hdirectory : directory ∈ ["in", "out"])
    (hname : name ∈ ["shop.client.json", "Unit.ts", "index.ts", "Old.ts"])
    (h : shopDisk.file? [directory, name] = some c) :
    shopDisk.read (Path.join (Path.join "/" directory) name) = .ok c := by
  obtain ⟨⟨_, _, hlocation, _⟩, hnames⟩ := paths_shopDisk hdirectory
  obtain ⟨hname, husual⟩ := hnames _ hname
  refine read_eq_ok.2 ⟨_, place_join hname (isDirectory_shopDisk hdirectory) husual, ?_,
    hname.getLast?_join _⟩
  rw [hlocation]
  exact h

/-- The scan of the module. -/
def shopScan : Scan :=
  .ofModules ["ApiController"] (Loader.load (.ofPending [("shop.client", shopDocument)]))

theorem readText_shopDisk :
    shopDisk.readText (Path.join (Path.join "/" "in") "shop.client.json") = .ok shopText :=
  readText_of_read (read_shopDisk (by simp) (by simp) rfl)

theorem scan_shopDisk (destination : String) :
    scan (.initial "/in" destination) ⟨"/", "/"⟩ shopDisk = .ok shopScan := by
  have hsource : (Options.initial "/in" destination).sourceDirectory ⟨"/", "/"⟩ =
      Path.join "/" "in" := by
    change Path.resolve ⟨"/", "/"⟩ "/in" = _
    decide +kernel
  have hnames : moduleNames shopDisk (Path.join "/" "in") [⟨"*.client.json"⟩] =
      ["shop.client.json"] := by
    decide +kernel
  have hadd : Loader.empty.addFile shopDisk (Path.join (Path.join "/" "in") "shop.client.json") =
      .ofPending [("shop.client", shopDocument)] := by
    have hname : Loader.fallbackName (Path.join (Path.join "/" "in") "shop.client.json") =
        "shop.client" := by
      decide +kernel
    have hdocument : Loader.readDocument shopDisk
        (Path.join (Path.join "/" "in") "shop.client.json") = .ok shopDocument := by
      rw [Loader.readDocument, readText_shopDisk]
      simp only [ofJson_shopText]
    have haccepts : Loader.empty.Accepts ("shop.client", shopDocument) := by
      refine ⟨List.not_mem_nil, ?_⟩
      decide +kernel
    have htry : (Loader.tryAddFile shopDisk
        (Path.join (Path.join "/" "in") "shop.client.json")).run.run .empty =
          (.ok (), .ofPending [("shop.client", shopDocument)]) := by
      rw [Loader.tryAddFile, hname, hdocument]
      exact Loader.outcome_of_accepts haccepts
    rw [Loader.addFile, htry]
  rw [scan_of_moduleNames ["shop.client.json"] (by rw [hsource, isDirectory_shopDisk (by simp)])
    filePatterns_client (by rw [hsource, hnames]), hsource, List.map_singleton, List.foldl_cons,
    List.foldl_nil, hadd]
  rfl

/-- The run generates the tree for the source directory and for the other one. -/
theorem generates_shopDisk (name : String) (h : name ∈ ["in", "out"]) :
    Generates (.initial "/in" (Path.join "/" name)) ⟨"/", "/"⟩ shopDisk shopScan shopTree := by
  have hfiles : ∀ name ∈ ["in", "out"],
      (shopScan.generate (.initial "/in" (Path.join "/" name))).toOption.map (·.files) =
        some [⟨"Unit.ts", unitText⟩, ⟨"index.ts", indexText⟩] := by
    decide +kernel
  obtain ⟨code, hcode, hfiles⟩ := Option.map_eq_some_iff.1 (hfiles name h)
  have hentries : (Tree.build [⟨"Unit.ts", unitText⟩, ⟨"index.ts", indexText⟩]).toOption.map
      (·.entries) = some shopTree.entries := by
    decide +kernel
  obtain ⟨t, ht, hentries⟩ := Option.map_eq_some_iff.1 hentries
  have ht := eq_ok_of_toOption ht
  obtain ⟨entries, distinct⟩ := t
  obtain rfl : entries = shopTree.entries := hentries
  exact ⟨scan_shopDisk _, code, eq_ok_of_toOption hcode, by rw [hfiles, ht]⟩

/-- The files are in place in both directories, and one file is to be removed. -/
theorem sync_shopDisk {directory stale : String}
    (h : (directory, stale) ∈ [("in", "shop.client.json"), ("out", "Old.ts")]) :
    ∃ r, Succeeds (shopTree.sync (Path.join "/" directory)) shopDisk r
      (shopDisk.erase [directory, stale]) := by
  have hplaces : ∀ p ∈ [("in", "shop.client.json"), ("out", "Old.ts")],
      p.1 ∈ ["in", "out"] ∧ p.2 ∈ ["shop.client.json", "Unit.ts", "index.ts", "Old.ts"] ∧
        location (Path.join "/" p.1) = [p.1] ∧
        location (Path.join (Path.join "/" p.1) p.2) = [p.1, p.2] ∧
        (shopDisk.fileNames [p.1]).filter (fun name =>
          !(shopTree.entries.map fun f => Text.lower f.1.topLevel).contains (Text.lower name)) =
            [p.2] := by
    decide +kernel
  obtain ⟨hdirectory, hname, hlocation, hremoved, hstale⟩ := hplaces _ h
  have hread : ∀ f ∈ shopTree.files,
      shopDisk.read (f.1.diskPath (Path.join "/" directory)) = .ok f.2.toUTF8 := by
    intro f hf
    have hf := Tree.mem_files.1 hf
    have hpath : ∀ directory ∈ ["in", "out"], ∀ f ∈ shopTree.entries,
        f.1.diskPath (Path.join "/" directory) = Path.join (Path.join "/" directory) f.1.text ∧
          f.1.text ∈ ["shop.client.json", "Unit.ts", "index.ts", "Old.ts"] := by
      decide +kernel
    obtain ⟨hpath, hname⟩ := hpath _ hdirectory f hf
    rw [hpath]
    refine read_shopDisk hdirectory hname ?_
    simp only [List.mem_cons, List.not_mem_nil, or_false] at hdirectory
    simp only [shopTree, List.mem_cons, List.not_mem_nil, or_false] at hf
    rcases hdirectory with rfl | rfl <;> rcases hf with rfl | rfl <;> rfl
  have hremove : shopDisk.remove (Path.join (Path.join "/" directory) stale) =
      .ok (shopDisk.erase [directory, stale]) := by
    have hfile : ∃ c, shopDisk.file? [directory, stale] = some c := by
      simp only [List.mem_cons, Prod.mk.injEq, List.not_mem_nil, or_false] at h
      obtain ⟨rfl, rfl⟩ | ⟨rfl, rfl⟩ := h <;> exact ⟨_, rfl⟩
    obtain ⟨c, hfile⟩ := hfile
    rw [remove_of_read (read_shopDisk hdirectory hname hfile), hremoved]
  refine ⟨_, Tree.sync_of_removeFiles (u := ()) (isDirectory_shopDisk hdirectory) hread ?_⟩
  rw [hlocation, Tree.stale_eq, hstale]
  simp only [removeFiles, succeeds_bind, succeeds_attempt]
  exact ⟨(), _, hremove, rfl⟩

/-- A run into one of the directories removes the file there that does not belong to its files. -/
theorem generate_shopDisk (directory stale : String)
    (h : (directory, stale) ∈ [("in", "shop.client.json"), ("out", "Old.ts")]) :
    ∃ report, Succeeds (generate (.initial "/in" (Path.join "/" directory)) ⟨"/", "/"⟩) shopDisk
      report (shopDisk.erase [directory, stale]) := by
  have hplaces : ∀ p ∈ [("in", "shop.client.json"), ("out", "Old.ts")], p.1 ∈ ["in", "out"] := by
    simp
  have hdirectory := hplaces _ h
  obtain ⟨⟨_, _, _, hdestination⟩, _⟩ := paths_shopDisk hdirectory
  obtain ⟨r, hsync⟩ := sync_shopDisk h
  exact ⟨_, generate_succeeds.2 ⟨_, _, r, generates_shopDisk _ hdirectory,
    by rw [hdestination]; exact hsync, rfl⟩⟩

theorem generate_again_shopDisk : ∃ report,
    Succeeds (generate (.initial "/in" "/out") ⟨"/", "/"⟩) shopDisk report
      (shopDisk.erase ["out", "Old.ts"]) ∧
    LeavesModules (.initial "/in" "/out") ⟨"/", "/"⟩ shopDisk (shopDisk.erase ["out", "Old.ts"]) ∧
    ∃ report', Succeeds (generate (.initial "/in" "/out") ⟨"/", "/"⟩)
        (shopDisk.erase ["out", "Old.ts"]) report' (shopDisk.erase ["out", "Old.ts"]) ∧
      report'.written = [] ∧ report'.deleted = [] := by
  have hjoin : Path.join "/" "out" = "/out" := by decide +kernel
  have hgenerates := generates_shopDisk "out" (by simp)
  obtain ⟨report, hrun⟩ := generate_shopDisk "out" "Old.ts" (by simp)
  rw [hjoin] at hgenerates hrun
  have hseparate : ∀ sc t, Generates (.initial "/in" "/out") ⟨"/", "/"⟩ shopDisk sc t →
      IsSeparate (.initial "/in" "/out") ⟨"/", "/"⟩ t := by
    intro sc t h
    obtain ⟨rfl, rfl⟩ := h.unique hgenerates
    exact isSeparate_of_names (by decide +kernel) hgenerates (by decide +kernel)
  obtain ⟨hagain, hleaves⟩ := generate_again shopDisk_wellFormed (by decide) hrun hseparate
  have hmodules := hleaves (by decide +kernel)
  exact ⟨report, hrun, hmodules, hagain hmodules⟩

/-- Without its module the source directory gives an empty scan. -/
theorem scan_erase_shopDisk :
    scan (.initial "/in" "/in") ⟨"/", "/"⟩ (shopDisk.erase ["in", "shop.client.json"]) =
      .ok (.ofModules ["ApiController"] Loader.empty.load) := by
  have hsource : (Options.initial "/in" "/in").sourceDirectory ⟨"/", "/"⟩ = Path.join "/" "in" := by
    decide +kernel
  have hfile : shopDisk.get? ["in", "shop.client.json"] = some (.file shopText.toUTF8) := rfl
  have hdirectory : (shopDisk.erase ["in", "shop.client.json"]).isDirectory (Path.join "/" "in") =
      true :=
    (erase_keepsDirectories (by simp [hfile])).isDirectory (isDirectory_shopDisk (by simp))
  have hnames : moduleNames (shopDisk.erase ["in", "shop.client.json"]) (Path.join "/" "in")
      [⟨"*.client.json"⟩] = [] := by
    decide +kernel
  exact scan_of_moduleNames [] (by rw [hsource, hdirectory]) filePatterns_client
    (by rw [hsource, hnames])

/-- Then nothing but the list of exports belongs to the generated files. -/
theorem ownedNames_of_generates (h : Generates (.initial "/in" "/in") ⟨"/", "/"⟩
    (shopDisk.erase ["in", "shop.client.json"]) sc t) :
    ∀ name ∈ t.ownedNames, name = "index.ts" := by
  obtain ⟨hscan, code, hcode, ht⟩ := h
  obtain rfl := Except.ok.inj (hscan.symm.trans scan_erase_shopDisk)
  have hfiles : ((Scan.ofModules ["ApiController"] Loader.empty.load).generate
      (.initial "/in" "/in")).toOption.map (·.files) = some [⟨"index.ts", ""⟩] := by
    decide +kernel
  rw [hcode] at hfiles
  have hnames : (Tree.build [⟨"index.ts", ""⟩]).toOption.map
      (·.entries.map fun f => Text.lower f.1.topLevel) = some ["index.ts"] := by
    decide +kernel
  rw [← Option.some.inj hfiles, ht] at hnames
  intro name hname
  obtain ⟨f, hf, rfl⟩ := Tree.mem_ownedNames.1 hname
  have hmem : Text.lower f.1.topLevel ∈ t.entries.map fun f => Text.lower f.1.topLevel :=
    List.mem_map.2 ⟨f, Tree.mem_files.1 hf, rfl⟩
  exact List.mem_singleton.1 (Option.some.inj hnames ▸ hmem)

/-- A run in the source directory removes the module, and so the next run removes its files. -/
theorem not_generate_again_shopDisk : shopDisk.WellFormed ∧ ∃ report,
    Succeeds (generate (.initial "/in" "/in") ⟨"/", "/"⟩) shopDisk report
      (shopDisk.erase ["in", "shop.client.json"]) ∧
    ¬ ∃ report', Succeeds (generate (.initial "/in" "/in") ⟨"/", "/"⟩)
        (shopDisk.erase ["in", "shop.client.json"]) report'
        (shopDisk.erase ["in", "shop.client.json"]) ∧
      report'.written = [] ∧ report'.deleted = [] := by
  have hjoin : Path.join "/" "in" = "/in" := by decide +kernel
  obtain ⟨report, hrun⟩ := generate_shopDisk "in" "shop.client.json" (by simp)
  rw [hjoin] at hrun
  refine ⟨shopDisk_wellFormed, report, hrun, ?_⟩
  rintro ⟨report', hagain, _, hdeleted⟩
  obtain ⟨sc, t, r, hgenerates, hsync, rfl⟩ := generate_succeeds.1 hagain
  have hplace : location ((Options.initial "/in" "/in").destinationDirectory ⟨"/", "/"⟩) =
      ["in"] := by
    decide +kernel
  have howned := Tree.owned_of_deleted_eq_nil hsync hdeleted "Unit.ts"
    (by rw [hplace]; exact mem_fileNames.2 ⟨_, rfl⟩)
  exact absurd (ownedNames_of_generates hgenerates _ howned) (by decide +kernel)

end Run

end ApiClient
