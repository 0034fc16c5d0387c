import ApiClient.Proofs.Disk.Confinement

/-!
# Syncs that fail

A sync can stop at any file and at any step of writing it. What does not belong to the tree is
removed only after all files were written, and removing a file that is there does not fail, so a
sync that fails has removed nothing.

Results:
* `Output.Progress`: what a run over files may have changed when it stops.
* `syncFiles_progress`: a run over files keeps to that, whether it succeeds or fails.
* `exists_removeFiles`: files that are there and can be removed are removed.
* `isIntact_of_fails`: after a sync that failed every file of the tree is as it was or complete, and
  all other files are as they were.
-/

namespace ApiClient

/-! ## Writing files -/

namespace Output

open Disk

variable {d d' d'' : Disk} {directory : String} {f : FilePath × String}
  {fs gs : List (FilePath × String)}

/-- Directories stay. The file at a location is as it was, or it is one of these files with all of
its bytes; under their temporary names there may be anything. -/
structure Progress (directory : String) (fs : List (FilePath × String)) (d d' : Disk) : Prop where
  keepsDirectories : d.KeepsDirectories d'
  file? : ∀ l, d'.file? l = d.file? l ∨ ∃ f ∈ fs, f.1.segments ≠ [] ∧
    (l = target directory f ∧ d'.file? l = some f.2.toUTF8 ∨ l = temporary directory f)

namespace Progress

theorem of_extends (h : d.Extends d') : Progress directory fs d d' :=
  ⟨h.keepsDirectories, fun l => .inl (h.file?_eq l)⟩

theorem refl (directory : String) (fs : List (FilePath × String)) (d : Disk) :
    Progress directory fs d d :=
  of_extends (.refl d)

theorem trans (h : Progress directory fs d d') (h' : Progress directory fs d' d'') :
    Progress directory fs d d'' := by
  refine ⟨h.keepsDirectories.trans h'.keepsDirectories, fun l => ?_⟩
  rcases h'.file? l with hsame | hlater
  · rw [hsame]
    exact h.file? l
  · exact .inr hlater

theorem mono (hsub : fs ⊆ gs) (h : Progress directory fs d d') : Progress directory gs d d' :=
  ⟨h.keepsDirectories, fun l => (h.file? l).imp_right fun ⟨f, hf, hl⟩ => ⟨f, hsub hf, hl⟩⟩

end Progress

theorem write_progress {c : ByteArray} (hsegments : f.1.segments ≠ [])
    (h : d.write (temporaryPath (f.1.diskPath directory)) c = .ok d') :
    Progress directory [f] d d' := by
  obtain ⟨hkeep, hget⟩ := write_spec h
  refine ⟨hkeep, fun l => ?_⟩
  by_cases hl : l = temporary directory f
  · exact .inr ⟨f, .head _, hsegments, .inr hl⟩
  · exact .inl (file?_congr ((hget l).trans (if_neg hl)))

/-- The file comes to its place with all of its bytes. -/
theorem rename_progress (hsegments : f.1.segments ≠ [])
    (hfile : d.get? (temporary directory f) = some (.file f.2.toUTF8))
    (h : d.rename (temporaryPath (f.1.diskPath directory)) (f.1.diskPath directory) = .ok d') :
    Progress directory [f] d d' := by
  obtain ⟨hkeep, _, hget⟩ := rename_spec hfile h
  rw [location_diskPath] at hget
  refine ⟨hkeep, fun l => ?_⟩
  by_cases htarget : l = target directory f
  · refine .inr ⟨f, .head _, hsegments, .inl ⟨htarget, ?_⟩⟩
    rw [file?_eq_some_iff, hget, if_pos htarget]
  · by_cases hl : l = temporary directory f
    · exact .inr ⟨f, .head _, hsegments, .inr hl⟩
    · exact .inl (file?_congr (((hget l).trans (if_neg htarget)).trans (if_neg hl)))

theorem replace_progress (hsegments : f.1.segments ≠ []) (d : Disk) :
    Progress directory [f] d (after (do
      Disk.attempt (.io (temporaryPath (f.1.diskPath directory)))
        (·.write (temporaryPath (f.1.diskPath directory)) f.2.toUTF8)
      Disk.attempt (.io (f.1.diskPath directory))
        (·.rename (temporaryPath (f.1.diskPath directory)) (f.1.diskPath directory)) :
          Action OutputFault Unit) d) := by
  refine after_bind_of_trans (R := Progress directory [f]) .trans ?_ fun _ d₁ hwrite => ?_
  · rcases after_attempt (OutputFault.io (temporaryPath (f.1.diskPath directory)))
      (·.write (temporaryPath (f.1.diskPath directory)) f.2.toUTF8) d with h | h
    · rw [h]
      exact .refl _ _ _
    · exact write_progress hsegments h
  · have hfile : d₁.get? (temporary directory f) = some (.file f.2.toUTF8) :=
      ((write_spec (succeeds_attempt.1 hwrite)).2 _).trans (if_pos rfl)
    rcases after_attempt (OutputFault.io (f.1.diskPath directory))
      (·.rename (temporaryPath (f.1.diskPath directory)) (f.1.diskPath directory)) d₁ with h | h
    · rw [h]
      exact .refl _ _ _
    · exact rename_progress hsegments hfile h

theorem writeFile_progress (hsegments : f.1.segments ≠ []) (d : Disk) :
    Progress directory [f] d (after (writeFile (f.1.diskPath directory) f.2) d) := by
  unfold writeFile
  cases Path.parent? (f.1.diskPath directory) with
  | none => exact replace_progress hsegments d
  | some parent =>
    refine after_bind_of_trans (R := Progress directory [f]) .trans ?_ fun _ d₁ _ =>
      replace_progress hsegments d₁
    rw [after_adapt]
    exact .of_extends (makeDirectories_after parent d).toExtends

theorem syncFile_progress (hdirectory : d.isDirectory directory = true) :
    Progress directory [f] d (after (syncFile directory f) d) := by
  by_cases hsegments : f.1.segments = []
  · rw [syncFile_of_segments_nil hdirectory hsegments]
    exact .refl _ _ _
  · rw [syncFile]
    refine after_bind_of_trans (R := Progress directory [f]) .trans ?_ fun same d₁ hholds => ?_
    · rw [holds, after_ask]
      exact .refl _ _ _
    · split
      · exact .refl _ _ _
      · exact after_bind_of_trans (R := Progress directory [f]) .trans
          (writeFile_progress hsegments d₁) fun _ d₂ _ => .refl _ _ _

/-- The run goes on with the next file on a disk on which the directory is still there. -/
theorem syncFiles_progress (hdirectory : d.isDirectory directory = true) :
    Progress directory fs d (after (syncFiles directory fs) d) := by
  induction fs generalizing d with
  | nil => exact .refl _ _ _
  | cons f fs ih =>
    have hfile : Progress directory [f] d (after (syncFile directory f) d) :=
      syncFile_progress hdirectory
    rw [syncFiles]
    refine after_bind_of_trans (R := Progress directory (f :: fs)) .trans (hfile.mono (by simp))
      fun _ d₁ hsuccess => ?_
    rw [hsuccess.after_eq] at hfile
    have hrest := ih (hfile.keepsDirectories.isDirectory hdirectory)
    exact after_bind_of_trans (R := Progress directory (f :: fs)) .trans
      (hrest.mono (List.subset_cons_self f fs)) fun _ d₂ _ => .refl _ _ _

/-! ## Removing files -/

/-- The file of this name can be removed from the directory whenever it is there. -/
def CanRemove (directory name : String) : Prop :=
  ∀ d : Disk, d.isDirectory directory = true → d.file? (location directory ++ [name]) ≠ none →
    ∃ d', d.remove (Path.join directory name) = .ok d'

theorem canRemove_of_isUsual {name : String} (hname : IsName name)
    (h : IsUsual (Path.join directory name) name) : CanRemove directory name := by
  intro d hdirectory hfile
  obtain ⟨c, hc⟩ := Option.ne_none_iff_exists'.1 hfile
  have hread : d.read (Path.join directory name) = .ok c :=
    read_eq_ok.2 ⟨_, place_join hname hdirectory h, hc, hname.getLast?_join _⟩
  exact ⟨_, remove_of_read hread⟩

/-- No file that is removed is in the way of another one. -/
theorem exists_removeFiles {names : List String} (hdirectory : d.isDirectory directory = true)
    (hnodup : names.Nodup) (hnames : ∀ n ∈ names, IsName n)
    (hfiles : ∀ n ∈ names, d.file? (location directory ++ [n]) ≠ none)
    (hremove : ∀ n ∈ names, CanRemove directory n) :
    ∃ d', Succeeds (removeFiles directory names) d () d' := by
  induction names generalizing d with
  | nil => exact ⟨d, succeeds_pure.2 ⟨rfl, rfl⟩⟩
  | cons n names ih =>
    obtain ⟨hfresh, hnodup⟩ := List.nodup_cons.1 hnodup
    obtain ⟨d₁, hfirst⟩ := hremove n (.head _) d hdirectory (hfiles n (.head _))
    have hsingle : Succeeds (removeFiles directory [n]) d () d₁ := by
      simp only [removeFiles, succeeds_bind, succeeds_attempt]
      exact ⟨(), d₁, hfirst, succeeds_pure.2 ⟨rfl, rfl⟩⟩
    obtain ⟨hkeep, hget⟩ := removeFiles_spec (by simpa using hnames n (.head _)) hsingle
    have hothers : ∀ m ∈ names, d₁.file? (location directory ++ [m]) ≠ none := by
      intro m hm
      have hne : m ≠ n := fun he => hfresh (he ▸ hm)
      rw [file?, hget, if_neg (by simpa using hne)]
      exact hfiles m (.tail _ hm)
    obtain ⟨d₂, hrest⟩ := ih (hkeep.isDirectory hdirectory) hnodup
      (fun m hm => hnames m (.tail _ hm)) hothers fun m hm => hremove m (.tail _ hm)
    refine ⟨d₂, ?_⟩
    simp only [removeFiles, succeeds_bind, succeeds_attempt]
    exact ⟨(), d₁, hfirst, hrest⟩

end Output

/-! ## The whole tree -/

namespace Tree

open Disk Output

variable {t : Tree} {directory : String} {d d' : Disk}

/-- No file is lost or left half written: at the place of a file of the tree is what was there or
the whole file, and except under temporary names all other files are as they were. -/
structure IsIntact (t : Tree) (directory : String) (d d' : Disk) : Prop where
  others : ∀ l, (∀ f ∈ t.files, l ≠ target directory f ∧ l ≠ temporary directory f) →
    d'.file? l = d.file? l
  whole : ∀ f ∈ t.files, d'.file? (target directory f) = d.file? (target directory f) ∨
    d'.file? (target directory f) = some f.2.toUTF8

/-- Files with different paths have different places. -/
theorem eq_of_target_eq (hdistinct : (t.files.map fun f => f.1.diskPath directory).Nodup)
    {f g : FilePath × String} (hf : f ∈ t.files) (hg : g ∈ t.files)
    (h : target directory f = target directory g) : f = g := by
  refine List.inj_on_of_nodup_map hdistinct hf hg ?_
  rw [FilePath.diskPath, FilePath.diskPath, List.append_cancel_left h]

/-- No file has the place or the temporary name of another one, so what is there is its own. -/
theorem isIntact_of_progress
    (hdistinct : (t.files.map fun f => f.1.diskPath directory).Nodup)
    (htemporary : ∀ f ∈ t.files, ∀ g ∈ t.files,
      f.1.diskPath directory ≠ temporaryPath (g.1.diskPath directory))
    (h : Progress directory t.files d d') : t.IsIntact directory d d' where
  others l hl := by
    rcases h.file? l with hsame | ⟨f, hf, _, ⟨htarget, _⟩ | htemp⟩
    · exact hsame
    · exact absurd htarget (hl f hf).1
    · exact absurd htemp (hl f hf).2
  whole f hf := by
    rcases h.file? (target directory f) with hsame | ⟨g, hg, hsegments, ⟨htarget, hwhole⟩ | htemp⟩
    · exact .inl hsame
    · obtain rfl := eq_of_target_eq hdistinct hf hg htarget
      exact .inr hwhole
    · exact absurd htemp (target_ne_temporary hsegments (htemporary f hf g hg))

/-- The last part of a sync does not fail. -/
theorem not_fails_removeFiles {d₀ d₁ d₂ : Disk} {results : List (String × Bool)}
    {fault : OutputFault} (hd : d.WellFormed)
    (hdistinct : (t.files.map fun f => f.1.diskPath directory).Nodup)
    (htemporary : ∀ f ∈ t.files, ∀ g ∈ t.files,
      f.1.diskPath directory ≠ temporaryPath (g.1.diskPath directory))
    (hremove : ∀ name ∈ d.fileNames (location directory), CanRemove directory name)
    (hmake : Succeeds (makeDirectories directory) d () d₀)
    (hfiles : Succeeds (syncFiles directory t.files) d₀ results d₁) :
    ¬ Fails (removeFiles directory (t.stale (d₁.fileNames (location directory)))) d₁ fault d₂ := by
  obtain ⟨_, hdirectory, hread, hget⟩ :=
    syncFiles_files_spec hd hdistinct htemporary hmake hfiles
  have hold : ∀ name ∈ t.stale (d₁.fileNames (location directory)),
      name ∈ d.fileNames (location directory) := fun name hname =>
    ((mem_stale_fileNames hd (fun f hf => (hread f hf).1) hget name).1 hname).1
  have hthere : ∀ name ∈ t.stale (d₁.fileNames (location directory)),
      d₁.file? (location directory ++ [name]) ≠ none := by
    intro name hname
    obtain ⟨c, hc⟩ := mem_fileNames.1 (mem_stale.1 hname).1
    simp [hc]
  obtain ⟨d', hsuccess⟩ := exists_removeFiles hdirectory ((fileNames_nodup _ _).filter _)
    (fun name hname => isName_of_mem_fileNames hd (hold name hname)) hthere
    fun name hname => hremove name (hold name hname)
  exact hsuccess.not_fails

/-- A sync that fails, at whatever step, leaves the files of the tree as they were or complete and
all other files as they were, provided that the files of the directory can be removed. -/
theorem isIntact_of_fails {fault : OutputFault} (hd : d.WellFormed)
    (hdistinct : (t.files.map fun f => f.1.diskPath directory).Nodup)
    (htemporary : ∀ f ∈ t.files, ∀ g ∈ t.files,
      f.1.diskPath directory ≠ temporaryPath (g.1.diskPath directory))
    (hremove : ∀ name ∈ d.fileNames (location directory), CanRemove directory name)
    (h : Fails (t.sync directory) d fault d') : t.IsIntact directory d d' := by
  refine isIntact_of_progress hdistinct htemporary ?_
  simp only [sync, fails_bind, succeeds_adapt, succeeds_ask, not_fails_pure, and_false,
    exists_false, or_false] at h
  have hmakes := (makeDirectories_after directory d).toExtends
  rcases h with hmake | ⟨_, d₀, hmake, h⟩
  · have hafter : after ((makeDirectories directory).adapt (OutputFault.io directory)) d = d' :=
      congrArg Prod.snd hmake
    rw [after_adapt] at hafter
    exact .of_extends (hafter ▸ hmakes)
  obtain ⟨hextends, hdirectory⟩ := makeDirectories_spec hmake
  have hprogress : Progress directory t.files d₀ (after (syncFiles directory t.files) d₀) :=
    syncFiles_progress hdirectory
  refine .trans (.of_extends hextends) ?_
  rcases h with hfiles | ⟨results, d₁, hfiles, h⟩
  · have hafter : after (syncFiles directory t.files) d₀ = d' := congrArg Prod.snd hfiles
    exact hafter ▸ hprogress
  rw [hfiles.after_eq] at hprogress
  rcases h with hask | ⟨names, _, ⟨hnames, rfl⟩, h⟩
  · exact (fails_ask.1 hask).2 ▸ hprogress
  · obtain ⟨l, hplace, _, rfl⟩ := files_eq_ok.1 hnames
    obtain rfl := place_eq_location hplace
    exact absurd h (not_fails_removeFiles hd hdistinct htemporary hremove hmake hfiles)

/-! ## A directory under a temporary name -/

/-- A disk with another version of a file, a directory under its temporary name, and a file that
does not belong to the tree. -/
def obstructedDisk : Disk where
  entries := [(["index.ts"], .file "old".toUTF8), (["index.ts.tmp"], .directory),
    (["Old.ts"], .file ByteArray.empty)]
  distinct := by decide

theorem obstructedDisk_wellFormed : obstructedDisk.WellFormed := by
  have hentries : ∀ l ∈ obstructedDisk.entries.map (·.1),
      l = [] ++ [l.head!] ∧ IsName l.head! := by
    decide
  refine .of_entries fun e he => ?_
  obtain ⟨hl, hname⟩ := hentries _ (List.mem_map_of_mem he)
  exact ⟨[], e.1.head!, hl, hname, rfl⟩

/-- The sync fails when it writes the file under its temporary name. -/
theorem sync_obstructedDisk : Fails (indexTree.sync "/") obstructedDisk
    (.io "/index.ts.tmp" .isADirectory) obstructedDisk := by
  have hmake : Succeeds (makeDirectories "/") obstructedDisk () obstructedDisk :=
    makeDirectories_of_isDirectory (isDirectory_root _)
  have hplace : ∀ p ∈ [("/index.ts", "index.ts"), (temporaryPath "/index.ts", "index.ts.tmp")],
      obstructedDisk.place p.1 = .ok [p.2] ∧ p.1.toList.getLast? ≠ some '/' := by
    have hpaths : ∀ p ∈ [("/index.ts", "index.ts"), (temporaryPath "/index.ts", "index.ts.tmp")],
        p.1 = Path.join "/" p.2 ∧ IsName p.2 ∧ IsUsual (Path.join "/" p.2) p.2 := by
      decide +kernel
    intro p hp
    obtain ⟨hpath, hname, husual⟩ := hpaths p hp
    rw [hpath, place_join hname (isDirectory_root _) husual,
      show location "/" = [] by decide +kernel]
    exact ⟨rfl, hname.getLast?_join "/"⟩
  obtain ⟨hindex, hlast⟩ := hplace _ (.head _)
  have hholds : Succeeds (holds "/index.ts" "export {};\n") obstructedDisk false
      obstructedDisk := by
    have hread : obstructedDisk.read "/index.ts" = .ok "old".toUTF8 :=
      read_eq_ok.2 ⟨_, hindex, rfl, hlast⟩
    rw [holds, succeeds_ask, hread]
    exact ⟨congrArg Except.ok (by decide +kernel), rfl⟩
  have hwrite : Fails (writeFile "/index.ts" "export {};\n") obstructedDisk
      (.io "/index.ts.tmp" .isADirectory) obstructedDisk := by
    simp only [writeFile, show Path.parent? "/index.ts" = some "/" by decide +kernel, fails_bind,
      succeeds_adapt, fails_attempt]
    refine .inr ⟨(), _, hmake, .inl ⟨⟨.isADirectory, ?_, by decide +kernel⟩, rfl⟩⟩
    exact write_of_directory (hplace _ (.tail _ (.head _))).1 rfl
  have hpath := diskPath_indexTree
  simp only [sync, fails_bind, succeeds_adapt]
  refine .inr ⟨(), _, hmake, .inl ?_⟩
  rw [files_indexTree] at hpath ⊢
  simp only [indexTree, syncFiles, syncFile, fails_bind]
  rw [hpath _ (.head _)]
  exact .inl (.inr ⟨false, _, hholds, fails_bind.2 (.inl hwrite)⟩)

theorem isIntact_of_fails_obstructedDisk :
    Fails (indexTree.sync "/") obstructedDisk (.io "/index.ts.tmp" .isADirectory) obstructedDisk ∧
      indexTree.IsIntact "/" obstructedDisk obstructedDisk := by
  have hdistinct : (indexTree.files.map fun f => f.1.diskPath "/").Nodup := by
    rw [files_indexTree]
    simp [indexTree]
  have htemporary : ∀ f ∈ indexTree.files, ∀ g ∈ indexTree.files,
      f.1.diskPath "/" ≠ temporaryPath (g.1.diskPath "/") := by
    intro f hf g hg
    rw [diskPath_indexTree f hf, diskPath_indexTree g hg]
    decide +kernel
  have hremove : ∀ name ∈ obstructedDisk.fileNames (location "/"), CanRemove "/" name := by
    have hnames : ∀ name ∈ obstructedDisk.fileNames (location "/"),
        IsName name ∧ IsUsual (Path.join "/" name) name := by
      decide +kernel
    exact fun name hname => canRemove_of_isUsual (hnames name hname).1 (hnames name hname).2
  exact ⟨sync_obstructedDisk,
    isIntact_of_fails obstructedDisk_wellFormed hdistinct htemporary hremove sync_obstructedDisk⟩

end Tree

end ApiClient
