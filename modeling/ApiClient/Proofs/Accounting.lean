import ApiClient.Proofs.Sync

/-!
# What a sync reports and what it changes

A sync reports the files of the tree that it wrote and the names of the files that it deleted, which
lie right inside the directory. But each file is written under its temporary name first, in place of
what is there, and then moved. What was there is gone, and the report does not tell.

Results:
* `syncFiles_written`: what a run over files changes, in terms of the files that it wrote.
* `sync_changes`: what a sync changes, in terms of its report.
* `Tree.AccountsForAll`: the report accounts for every file that was changed or lost.
* `accountsForAll_iff`: it does exactly if no file was there under the temporary name of a written
  file, unless that is the place of a written file.
* `not_accountsForAll_notesDisk`: some report does not.
-/

namespace ApiClient

open Disk Output

variable {t : Tree} {directory : String} {d d' : Disk} {r : SyncReport}

/-! ## Specification -/

/-- The report accounts for a change at a location: a file of the tree was written there, or the
file there was deleted. -/
def SyncReport.AccountsFor (r : SyncReport) (t : Tree) (directory : String) (l : Location) : Prop :=
  (∃ f ∈ t.files, f.1.text ∈ r.written ∧ l = target directory f) ∨
    ∃ name ∈ r.deleted, l = location directory ++ [name]

/-- The report accounts for every file that was there before and changed or is gone. -/
structure Tree.AccountsForAll (t : Tree) (directory : String) (d d' : Disk) (r : SyncReport) :
    Prop where
  changed : ∀ l, d.file? l ≠ none → d'.file? l ≠ d.file? l → r.AccountsFor t directory l
  /-- A file that is gone and was not right inside the directory was one of the tree. -/
  below : ∀ ns, 2 ≤ ns.length → d.file? (location directory ++ ns) ≠ none →
    d'.file? (location directory ++ ns) = none →
      ∃ f ∈ t.files, location directory ++ ns = target directory f

/-! ## Written files -/

namespace Output

variable {f : FilePath × String} {fs : List (FilePath × String)}

/-- A file is left alone or written. -/
theorem syncFile_cases {written : Bool} (h : Succeeds (syncFile directory f) d written d') :
    written = false ∧ d' = d ∨
      written = true ∧ Succeeds (writeFile (f.1.diskPath directory) f.2) d () d' := by
  simp only [syncFile, succeeds_bind] at h
  obtain ⟨same, d₁, hholds, h⟩ := h
  obtain ⟨rfl, _, _⟩ := holds_spec hholds
  cases same with
  | true =>
    obtain ⟨rfl, rfl⟩ := succeeds_pure.1 h
    exact .inl ⟨rfl, rfl⟩
  | false =>
    obtain ⟨_, d₂, hwrite, h⟩ := succeeds_bind.1 h
    obtain ⟨rfl, rfl⟩ := succeeds_pure.1 h
    exact .inr ⟨rfl, hwrite⟩

/-- Nothing is left under the temporary names of the files that were written. All other files stay,
except for what is at the places of these. -/
theorem syncFiles_written {results : List (String × Bool)}
    (h : Succeeds (syncFiles directory fs) d results d') :
    ∃ ws : List (FilePath × String), ws.Sublist fs ∧
      (results.filter (·.2)).map (·.1) = ws.map (·.1.text) ∧
      ∀ l, (∀ f ∈ ws, l ≠ target directory f) →
        d'.file? l = if ∃ f ∈ ws, l = temporary directory f then none else d.file? l := by
  induction fs generalizing d results with
  | nil =>
    obtain ⟨rfl, rfl⟩ := succeeds_pure.1 h
    exact ⟨[], .slnil, rfl, by simp⟩
  | cons f fs ih =>
    simp only [syncFiles, succeeds_bind, succeeds_pure] at h
    obtain ⟨written, d₁, hfile, rest, _, hrest, rfl, rfl⟩ := h
    obtain ⟨ws, hsub, hws, hget⟩ := ih hrest
    rcases syncFile_cases hfile with ⟨rfl, rfl⟩ | ⟨rfl, hwrite⟩
    · exact ⟨ws, hsub.cons f, by simpa using hws, hget⟩
    · refine ⟨f :: ws, hsub.cons_cons f, by simpa using hws, fun l hl => ?_⟩
      obtain ⟨_, _, hwritten⟩ := writeFile_spec hwrite
      have hf := hwritten l
      rw [location_diskPath, if_neg (hl f (.head _))] at hf
      rw [hget l fun g hg => hl g (.tail _ hg), hf]
      simp only [List.exists_mem_cons_iff]
      by_cases hlater : ∃ g ∈ ws, l = temporary directory g
      · rw [if_pos hlater, if_pos (.inr hlater)]
      · simp only [hlater, or_false, if_false]
        rfl

end Output

/-! ## The whole tree -/

namespace Tree

/-- The text of a path tells a file of the tree. -/
theorem mem_of_text_mem {ws : List (FilePath × String)} (hsub : ws.Sublist t.files)
    {f : FilePath × String} (hf : f ∈ t.files) :
    f.1.text ∈ ws.map (·.1.text) ↔ f ∈ ws := by
  constructor
  · intro h
    obtain ⟨g, hg, htext⟩ := List.mem_map.1 h
    have hnodup : (t.files.map (·.1.text)).Nodup :=
      List.pairwise_map.2 (t.files_pairwise_lt.imp fun hlt => String.ne_of_lt hlt)
    exact List.inj_on_of_nodup_map hnodup (hsub.subset hg) hf htext ▸ hg
  · exact fun h => List.mem_map.2 ⟨f, h, rfl⟩

/-- What is not at the place of a written file is lost if it was deleted or was under the temporary
name of one, and else stays. What was deleted was neither of these. -/
theorem sync_changes (hd : d.WellFormed) (h : Succeeds (t.sync directory) d r d') :
    (∀ name ∈ r.deleted, ∀ f ∈ t.files, f.1.text ∈ r.written →
      location directory ++ [name] ≠ target directory f ∧
        location directory ++ [name] ≠ temporary directory f) ∧
      ∀ l, (∀ f ∈ t.files, f.1.text ∈ r.written → l ≠ target directory f) →
        d'.file? l =
          if (∃ name ∈ r.deleted, l = location directory ++ [name]) ∨
            ∃ f ∈ t.files, f.1.text ∈ r.written ∧ l = temporary directory f then none
          else d.file? l := by
  simp only [sync, succeeds_bind, succeeds_adapt, succeeds_ask, succeeds_pure] at h
  obtain ⟨_, d₀, hmake, results, d₁, hfiles, names, _, ⟨hnames, rfl⟩, _, d₂, hremove, rfl, rfl⟩ := h
  obtain ⟨l, hplace, _, rfl⟩ := files_eq_ok.1 hnames
  obtain rfl := place_eq_location hplace
  obtain ⟨ws, hsub, hws, hget⟩ := syncFiles_written hfiles
  have hwritten : ∀ f ∈ t.files, (f.1.text ∈ ws.map (·.1.text) ↔ f ∈ ws) := fun f hf =>
    mem_of_text_mem hsub hf
  have hsame : ∀ l, d₀.file? l = d.file? l := (makeDirectories_spec hmake).1.file?_eq
  simp only [hsame] at hget
  -- A stale file was there before the sync: it is not at the place of a written file.
  have hstale : ∀ name ∈ t.stale (d₁.fileNames (location directory)),
      (∀ f ∈ ws, location directory ++ [name] ≠ target directory f) ∧
        (¬ ∃ f ∈ ws, location directory ++ [name] = temporary directory f) ∧ IsName name := by
    intro name hname
    obtain ⟨hthere, howned⟩ := mem_stale.1 hname
    have htarget : ∀ f ∈ ws, location directory ++ [name] ≠ target directory f := fun f hf =>
      ne_target howned f (hsub.subset hf)
    obtain ⟨c, hc⟩ := mem_fileNames.1 hthere
    rw [hget _ htarget] at hc
    obtain ⟨htemporary, hfile⟩ := Option.ite_none_left_eq_some.1 hc
    exact ⟨htarget, htemporary, isName_of_mem_fileNames hd (mem_fileNames.2 ⟨c, hfile⟩)⟩
  have hdeleted : ∀ name, name ∈ Text.sortByText id (t.stale (d₁.fileNames (location directory))) ↔
      name ∈ t.stale (d₁.fileNames (location directory)) := fun name =>
    (Text.sortByText_perm _ _).mem_iff
  simp only [hws, hdeleted]
  constructor
  · intro name hname f hf hmem
    obtain ⟨htarget, htemporary, _⟩ := hstale name hname
    have hf' := (hwritten f hf).1 hmem
    exact ⟨htarget f hf', fun he => htemporary ⟨f, hf', he⟩⟩
  · intro l hl
    have hl' : ∀ f ∈ ws, l ≠ target directory f := fun f hf =>
      hl f (hsub.subset hf) ((hwritten f (hsub.subset hf)).2 hf)
    have htemporary : (∃ f ∈ t.files, f.1.text ∈ ws.map (·.1.text) ∧ l = temporary directory f) ↔
        ∃ f ∈ ws, l = temporary directory f := by
      constructor
      · rintro ⟨f, hf, hmem, he⟩
        exact ⟨f, (hwritten f hf).1 hmem, he⟩
      · rintro ⟨f, hf, he⟩
        exact ⟨f, hsub.subset hf, (hwritten f (hsub.subset hf)).2 hf, he⟩
    obtain ⟨_, hremoved⟩ := removeFiles_spec (fun name hname => (hstale name hname).2.2) hremove
    simp only [htemporary]
    by_cases hgone : ∃ name ∈ t.stale (d₁.fileNames (location directory)),
        l = location directory ++ [name]
    · rw [if_pos (.inl hgone), file?, hremoved, if_pos hgone]
    · simp only [hgone, false_or]
      rw [file?_congr ((hremoved l).trans (if_neg hgone)), hget l hl']

/-- The report accounts for all exactly if no file was under the temporary name of a written file,
unless a written file has this very place. -/
theorem accountsForAll_iff (hd : d.WellFormed) (h : Succeeds (t.sync directory) d r d') :
    t.AccountsForAll directory d d' r ↔
      ∀ f ∈ t.files, f.1.text ∈ r.written → d.file? (temporary directory f) ≠ none →
        ∃ g ∈ t.files, g.1.text ∈ r.written ∧ temporary directory f = target directory g := by
  obtain ⟨hdeleted, hget⟩ := sync_changes hd h
  constructor
  · intro haccounts f hf hwritten hfile
    by_contra hnone
    have htarget : ∀ g ∈ t.files, g.1.text ∈ r.written →
        temporary directory f ≠ target directory g := fun g hg hmem he => hnone ⟨g, hg, hmem, he⟩
    have hlost : d'.file? (temporary directory f) = none := by
      rw [hget _ htarget, if_pos (.inr ⟨f, hf, hwritten, rfl⟩)]
    have hchange : d'.file? (temporary directory f) ≠ d.file? (temporary directory f) := by
      rw [hlost]
      exact hfile.symm
    rcases haccounts.changed _ hfile hchange with hplace | ⟨name, hname, he⟩
    · exact hnone hplace
    · exact (hdeleted name hname f hf hwritten).2 he.symm
  · intro hall
    have hchanged : ∀ l, d.file? l ≠ none → d'.file? l ≠ d.file? l →
        r.AccountsFor t directory l := by
      intro l hfile hchange
      by_contra hnone
      obtain ⟨htarget, hkept⟩ := not_or.1 hnone
      rw [hget l fun f hf hmem he => htarget ⟨f, hf, hmem, he⟩, ite_ne_right_iff] at hchange
      obtain ⟨f, hf, hwritten, he⟩ := hchange.1.resolve_left hkept
      rw [he] at hfile htarget
      exact htarget (hall f hf hwritten hfile)
    refine ⟨hchanged, fun ns hlong hfile hlost => ?_⟩
    have hchange : d'.file? (location directory ++ ns) ≠ d.file? (location directory ++ ns) := by
      rw [hlost]
      exact hfile.symm
    rcases hchanged _ hfile hchange with ⟨f, hf, _, he⟩ | ⟨name, _, he⟩
    · exact ⟨f, hf, he⟩
    · simp [List.append_cancel_left he] at hlong

theorem accountsForAll_iff_staleDisk : ∃ d',
    Succeeds (indexTree.sync "/") staleDisk ⟨"/", ["index.ts"], [], ["Old.ts"]⟩ d' ∧
      (indexTree.AccountsForAll "/" staleDisk d' ⟨"/", ["index.ts"], [], ["Old.ts"]⟩ ↔
        ∀ f ∈ indexTree.files, f.1.text ∈ ["index.ts"] →
          staleDisk.file? (temporary "/" f) ≠ none →
            ∃ g ∈ indexTree.files, g.1.text ∈ ["index.ts"] ∧
              temporary "/" f = target "/" g) := by
  obtain ⟨d', hsync⟩ := sync_staleDisk
  exact ⟨d', hsync, accountsForAll_iff staleDisk_wellFormed hsync⟩

/-! ## A file under a temporary name -/

/-- A tree with one file in a directory. -/
def schemaTree : Tree where
  entries := [(⟨"meta/Schema.json", by decide, by decide⟩, "[]")]
  distinct := by simp

/-- A disk with a file in this directory under the temporary name of that one. -/
def notesDisk : Disk where
  entries := [(["meta"], .directory), (["meta", "Schema.json.tmp"], .file "notes".toUTF8)]
  distinct := by decide

theorem notesDisk_wellFormed : notesDisk.WellFormed := by
  refine .of_entries fun e he => ?_
  rcases List.mem_cons.1 he with rfl | he
  · exact ⟨[], "meta", rfl, by decide, rfl⟩
  · obtain rfl := List.mem_singleton.1 he
    exact ⟨["meta"], "Schema.json.tmp", rfl, by decide, rfl⟩

theorem files_schemaTree : schemaTree.files = schemaTree.entries := by
  simp [files, Text.sortByText, schemaTree]

theorem diskPath_schemaTree : ∀ f ∈ schemaTree.files,
    f.1.diskPath "/" = Path.join "/meta" "Schema.json" ∧
      f.1.segments = ["meta", "Schema.json"] := by
  rw [files_schemaTree]
  decide +kernel

/-- The file is written, and what was under its temporary name is gone. -/
theorem sync_notesDisk : ∃ d', Succeeds (schemaTree.sync "/") notesDisk
    ⟨"/", ["meta/Schema.json"], [], []⟩ d' ∧ d'.file? ["meta", "Schema.json.tmp"] = none := by
  have hname : IsName "Schema.json" := by decide
  have husual : IsUsual (temporaryPath (Path.join "/meta" "Schema.json")) "Schema.json.tmp" := by
    decide +kernel
  have hparent : Path.parent? (Path.join "/meta" "Schema.json") = some "/meta" := by decide +kernel
  have hlocation : location "/meta" = ["meta"] := by decide +kernel
  have hmeta : notesDisk.isDirectory "/meta" = true := by
    have hmeta : IsUsual (Path.join "/" "meta") "meta" := by decide +kernel
    have hplace := place_join (by decide) notesDisk.isDirectory_root hmeta
    rw [show Path.join "/" "meta" = "/meta" by decide +kernel] at hplace
    exact isDirectory_iff.2 ⟨_, hplace, rfl⟩
  have hholds : Succeeds (holds (Path.join "/meta" "Schema.json") "[]") notesDisk false
      notesDisk := by
    have hmissing : notesDisk.get? (location "/meta" ++ ["Schema.json"]) = none := by
      rw [hlocation]
      rfl
    rw [holds, succeeds_ask, read_of_none (place_join hname hmeta husual.of_append) hmissing]
    exact ⟨rfl, rfl⟩
  obtain ⟨d', hwrite⟩ : ∃ d',
      Succeeds (writeFile (Path.join "/meta" "Schema.json") "[]") notesDisk () d' := by
    refine exists_writeFile hname hparent hmeta husual ?_ ?_ <;> rw [hlocation]
    · exact Eq.trans_ne (rfl : _ = none) (Option.some_ne_none _).symm
    · exact Eq.trans_ne (rfl : _ = some (Node.file _)) (by simp)
  have hsync : Succeeds (syncFiles "/" schemaTree.files) notesDisk [("meta/Schema.json", true)]
      d' := by
    have hpath := diskPath_schemaTree
    rw [files_schemaTree] at hpath ⊢
    simp only [schemaTree, syncFiles, syncFile, succeeds_bind]
    rw [(hpath _ (.head _)).1]
    exact ⟨true, d', ⟨false, _, hholds, succeeds_bind.2 ⟨(), d', hwrite, rfl⟩⟩, [], d', rfl, rfl⟩
  obtain ⟨_, _, hget⟩ := writeFile_spec hwrite
  rw [show location (Path.join "/meta" "Schema.json") = ["meta", "Schema.json"] by decide +kernel,
    show location (temporaryPath (Path.join "/meta" "Schema.json")) = ["meta", "Schema.json.tmp"] by
      decide +kernel] at hget
  have hnone : d'.fileNames [] = [] := by
    refine List.eq_nil_iff_forall_not_mem.2 fun name hname => ?_
    obtain ⟨c, hc⟩ := mem_fileNames.1 hname
    rw [hget, if_neg (by simp), if_neg (by simp), file?_eq_some_iff,
      get?_eq_some_iff (by simp)] at hc
    simp [notesDisk] at hc
  obtain ⟨l, hplace, hl⟩ := isDirectory_iff.1 d'.isDirectory_root
  have hroot : location "/" = [] := by decide +kernel
  obtain rfl : l = [] := (place_eq_location hplace).trans hroot
  refine ⟨d', ?_, (hget _).trans (by simp)⟩
  simp only [sync, succeeds_bind, succeeds_adapt, succeeds_ask, succeeds_pure]
  refine ⟨(), _, makeDirectories_of_isDirectory (isDirectory_root _), _, d', hsync, _, d',
    ⟨files_eq_ok.2 ⟨_, hplace, hl, hnone⟩, rfl⟩, (), d', rfl, ?_, rfl⟩
  simp [stale, Text.sortByText]

/-- The file that is lost was neither written nor deleted. -/
theorem not_accountsForAll_notesDisk : notesDisk.WellFormed ∧ ∃ d',
    Succeeds (schemaTree.sync "/") notesDisk ⟨"/", ["meta/Schema.json"], [], []⟩ d' ∧
      ¬ schemaTree.AccountsForAll "/" notesDisk d' ⟨"/", ["meta/Schema.json"], [], []⟩ := by
  obtain ⟨d', hsync, hlost⟩ := sync_notesDisk
  refine ⟨notesDisk_wellFormed, d', hsync, fun haccounts => ?_⟩
  have hroot : location "/" = [] := by decide +kernel
  have hthere : notesDisk.file? (location "/" ++ ["meta", "Schema.json.tmp"]) ≠ none := by
    rw [hroot]
    exact Eq.trans_ne (rfl : _ = some "notes".toUTF8) (Option.some_ne_none _)
  obtain ⟨f, hf, he⟩ := haccounts.below ["meta", "Schema.json.tmp"] (by simp) hthere
    (by rw [hroot]; exact hlost)
  rw [target, (diskPath_schemaTree f hf).2] at he
  simp at he

end Tree

end ApiClient
