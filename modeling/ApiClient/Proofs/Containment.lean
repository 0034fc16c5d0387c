import ApiClient.Proofs.Exports
import ApiClient.Proofs.Runs

/-!
# Generated files stay in the destination

Names of types and the path of the manifest are texts of the input. They become paths below the
destination or are refused, before anything is written.

Results:
* `FilePath.parse_text`, `FilePath.isPlain_of_mem_segments`: a path that is read reads back as
  itself, and its names are plain.
* `FilePath.not_leaves_of_parse`: a path that is read does not lead out of a directory.
* `Tree.parse_of_build`: a tree is built only if all paths are read.
* `Run.generate_contained`: what a run can write, whatever its input and its outcome.
-/

namespace ApiClient

open Disk

/-! ## Paths that are read -/

theorem Text.mem_of_mem_splitOn {sep c : Char} {cs s : List Char} (h : s ∈ Text.splitOn sep cs)
    (hc : c ∈ s) : c ∈ cs := by
  induction cs generalizing s with
  | nil => simp_all [Text.splitOn]
  | cons b cs ih =>
    obtain ⟨t, ts, ht⟩ := List.exists_cons_of_ne_nil (Text.splitOn_ne_nil sep cs)
    unfold Text.splitOn at h
    split at h
    · rcases List.mem_cons.1 h with rfl | h
      · simp at hc
      · exact .tail _ (ih h hc)
    · rw [ht] at h
      rcases List.mem_cons.1 h with rfl | h
      · rcases List.mem_cons.1 hc with rfl | hc
        · exact .head _
        · exact .tail _ (ih (ht ▸ .head _) hc)
      · exact .tail _ (ih (ht ▸ .tail _ h) hc)

/-- A name that says something, and the same on every system. -/
structure IsPlain (name : String) : Prop extends IsName name where
  no_backslash : '\\' ∉ name.toList
  no_colon : ':' ∉ name.toList

namespace FilePath

theorem not_mem_text (f : FilePath) : ':' ∉ f.text.toList ∧ '\\' ∉ f.text.toList := by
  have h := f.relative
  simp only [isRelativeText, Bool.and_eq_true] at h
  exact ⟨by simpa using h.1.1.2, by simpa using h.1.2⟩

theorem dropHere_text (f : FilePath) : Path.dropHere f.text.toList = f.text.toList := by
  have h := f.relative
  simp only [isRelativeText, Bool.and_eq_true] at h
  exact eq_of_beq h.2

theorem forwardSlashes_text (f : FilePath) : Path.forwardSlashes f.text = f.text.toList := by
  refine (List.map_congr_left fun c hc => if_neg ?_).trans (List.map_id' _)
  rintro rfl
  exact f.not_mem_text.2 hc

/-- A path that was read reads back as itself. -/
theorem parse_text (f : FilePath) : parse f.text = .ok f := by
  have htext : String.ofList (Path.dropHere (Path.forwardSlashes f.text)) = f.text := by
    rw [forwardSlashes_text, dropHere_text, String.ofList_toList]
  simp only [parse, htext, f.relative, f.noParent, dif_pos]

theorem isPlain_of_mem_segments {f : FilePath} {name : String} (h : name ∈ f.segments) :
    IsPlain name := by
  refine { isName_of_mem_segments h with no_backslash := ?_, no_colon := ?_ }
  all_goals
    obtain ⟨cs, hcs, rfl⟩ := List.mem_map.1 h
    rw [String.toList_ofList]
    intro hc
    have hmem := Text.mem_of_mem_splitOn (List.mem_filter.1 hcs).1 hc
  · exact f.not_mem_text.2 hmem
  · exact f.not_mem_text.1 hmem

end FilePath

/-! ## Paths that lead out of a directory -/

theorem splitOn_here (cs : List Char) :
    Text.splitOn '/' ('.' :: '/' :: cs) = ['.'] :: Text.splitOn '/' cs := by
  simp [Text.splitOn]

theorem hasNoParent_of_dropHere {cs : List Char} (h : hasNoParent (Path.dropHere cs) = true) :
    hasNoParent cs = true := by
  fun_induction Path.dropHere cs with
  | case1 cs ih =>
    rw [hasNoParent, splitOn_here, List.all_cons, Bool.and_eq_true]
    exact ⟨by decide, ih h⟩
  | case2 cs => exact h

theorem head?_of_dropHere {cs : List Char} (h : (Path.dropHere cs).head? ≠ some '/') :
    cs.head? ≠ some '/' := by
  fun_induction Path.dropHere cs with
  | case1 cs ih => simp
  | case2 cs => exact h

theorem not_mem_of_dropHere {cs : List Char} (h : ':' ∉ Path.dropHere cs) : ':' ∉ cs := by
  fun_induction Path.dropHere cs with
  | case1 cs ih => simp [ih h]
  | case2 cs => exact h

/-- With slashes in place of backslashes the names are parted further. -/
theorem splitOn_forwardSlashes (path : String) :
    Text.splitOn '/' (Path.forwardSlashes path) =
      (Text.splitOn '/' path.toList).flatMap (Text.splitOn '\\') := by
  rw [Path.forwardSlashes]
  induction path.toList with
  | nil => rfl
  | cons c cs ih =>
    obtain ⟨s, ss, hs⟩ := List.exists_cons_of_ne_nil (Text.splitOn_ne_nil '/' cs)
    obtain ⟨t, ts, ht⟩ := List.exists_cons_of_ne_nil (Text.splitOn_ne_nil '\\' s)
    rw [hs, List.flatMap_cons, ht] at ih
    rw [List.map_cons, Text.splitOn, Text.splitOn, ih, hs]
    by_cases hslash : c = '/'
    · simp [hslash, Text.splitOn, ht]
    · by_cases hback : c = '\\'
      · simp [hback, Text.splitOn, ht]
      · simp [hslash, hback, Text.splitOn, ht]

theorem hasNoParent_of_forwardSlashes {path : String}
    (h : hasNoParent (Path.forwardSlashes path) = true) : hasNoParent path.toList = true := by
  rw [hasNoParent, splitOn_forwardSlashes, List.all_eq_true] at h
  rw [hasNoParent, List.all_eq_true]
  intro s hs
  rw [bne_iff_ne]
  rintro rfl
  exact absurd (h ['.', '.'] (List.mem_flatMap.2 ⟨_, hs, by decide⟩)) (by decide)

namespace Disk

variable {directory path : String}

theorem prefix_foldl_enter {ns : List String} (h : ".." ∉ ns) (here : Location) :
    here <+: ns.foldl enter here := by
  induction ns generalizing here with
  | nil => exact List.prefix_rfl
  | cons n ns ih =>
    refine List.IsPrefix.trans ?_ (ih (fun hmem => h (.tail _ hmem)) _)
    rw [enter, if_neg fun he : n = ".." => h (he ▸ .head _)]
    split
    · exact List.prefix_rfl
    · exact List.prefix_append _ _

/-- A relative path that never leads to a parent stays inside the directory. -/
theorem location_join_of_hasNoParent (h : Path.isAbsolute path = false)
    (hparent : hasNoParent path.toList = true) :
    location directory <+: location (Path.join directory path) := by
  have hnames : ".." ∉ names path := by
    intro hmem
    obtain ⟨cs, hcs, he⟩ := List.mem_map.1 hmem
    have hne := List.all_eq_true.1 hparent cs (List.mem_filter.1 hcs).1
    have hcs : cs = ['.', '.'] := by rw [← String.toList_ofList (l := cs), he]; rfl
    exact absurd hne (by rw [hcs]; decide)
  rw [location, location, names_join_of_relative h, List.foldl_append]
  exact prefix_foldl_enter hnames _

end Disk

/-- A path leads out of a directory: it names a drive, or it leads to a place that is not inside, if
backslashes are taken as they are or as slashes. -/
def Leaves (directory path : String) : Prop :=
  ':' ∈ path.toList ∨
    ¬ location directory <+: location (Path.join directory path) ∨
    ¬ location directory <+:
      location (Path.join directory (String.ofList (Path.forwardSlashes path)))

namespace FilePath

theorem text_of_parse {path : String} {f : FilePath} (h : parse path = .ok f) :
    f.text = String.ofList (Path.dropHere (Path.forwardSlashes path)) := by
  unfold parse at h
  dsimp only at h
  split at h
  · split at h
    · obtain rfl := Except.ok.inj h
      rfl
    · simp at h
  · simp at h

/-- A path that is read does not lead out of any directory. -/
theorem not_leaves_of_parse {path : String} {f : FilePath} (h : parse path = .ok f)
    (directory : String) : ¬ Leaves directory path := by
  have htext : f.text.toList = Path.dropHere (Path.forwardSlashes path) := by
    rw [text_of_parse h, String.toList_ofList]
  have hcolon : ':' ∉ Path.forwardSlashes path := not_mem_of_dropHere (htext ▸ f.not_mem_text.1)
  have hparent : hasNoParent (Path.forwardSlashes path) = true :=
    hasNoParent_of_dropHere (htext ▸ f.noParent)
  have hhead : (Path.forwardSlashes path).head? ≠ some '/' := by
    have hrelative := f.relative
    simp only [isRelativeText, Bool.and_eq_true] at hrelative
    exact head?_of_dropHere (htext ▸ by simpa using hrelative.1.1.1.2)
  have habsolute : Path.isAbsolute path = false := by
    refine beq_eq_false_iff_ne.2 fun hpath => hhead ?_
    rw [Path.forwardSlashes, List.head?_map, hpath]
    rfl
  rintro (hdrive | hplace | hplace)
  · exact hcolon (List.mem_map.2 ⟨':', hdrive, rfl⟩)
  · exact hplace (location_join_of_hasNoParent habsolute (hasNoParent_of_forwardSlashes hparent))
  · refine hplace (location_join_of_hasNoParent ?_ (by rwa [String.toList_ofList]))
    rw [Path.isAbsolute, String.toList_ofList]
    exact beq_eq_false_iff_ne.2 hhead

end FilePath

/-! ## Trees -/

namespace Tree

theorem addAll_cons_eq_add (t : Tree) (f : GeneratedFile) (fs : List GeneratedFile) :
    t.addAll (f :: fs) =
      match t.add f.path f.content with
      | .ok t => t.addAll fs
      | .error fault => ((t.addAll fs).1, some fault) :=
  -- The parentheses keep it from being tagged as a definitional equation, which takes too long.
  (rfl)

theorem addAll_cons (t : Tree) (f : GeneratedFile) (fs : List GeneratedFile) :
    t.addAll (f :: fs) =
      match FilePath.parse f.path with
      | .ok p => (t.put p f.content).addAll fs
      | .error fault => ((t.addAll fs).1, some fault) := by
  rw [addAll_cons_eq_add, add]
  cases FilePath.parse f.path <;> rfl

theorem parse_of_addAll {t : Tree} {files : List GeneratedFile} (h : (t.addAll files).2 = none) :
    ∀ f ∈ files, ∃ p, FilePath.parse f.path = .ok p := by
  induction files generalizing t with
  | nil => simp
  | cons f fs ih =>
    rw [addAll_cons] at h
    cases hparse : FilePath.parse f.path with
    | error fault =>
      rw [hparse] at h
      cases h
    | ok p =>
      rw [hparse] at h
      rintro g hg
      rcases List.mem_cons.1 hg with rfl | hg
      · exact ⟨p, hparse⟩
      · exact ih h g hg

/-- A tree is built only if all paths are read. -/
theorem parse_of_build {t : Tree} {files : List GeneratedFile} (h : build files = .ok t) :
    ∀ f ∈ files, ∃ p, FilePath.parse f.path = .ok p := by
  rw [build] at h
  split at h
  · rename_i hadd
    exact parse_of_addAll (by rw [hadd])
  · simp at h

/-- If one of the paths leads out of a directory, no tree is built. -/
theorem build_of_leaves {files : List GeneratedFile} {f : GeneratedFile} (hf : f ∈ files)
    {directory : String} (h : Leaves directory f.path) : ∃ fault, build files = .error fault := by
  cases hbuild : build files with
  | error fault => exact ⟨fault, rfl⟩
  | ok t =>
    obtain ⟨p, hp⟩ := parse_of_build hbuild f hf
    exact absurd h (FilePath.not_leaves_of_parse hp directory)

end Tree

/-! ## Runs -/

namespace Run

open Output

theorem isAbsolute_destinationDirectory {s : Path.Surroundings}
    (h : Path.isAbsolute s.current = true) (o : Options) :
    Path.isAbsolute (o.destinationDirectory s) = true :=
  isAbsolute_join h _

/-- Whatever a run changes lies inside the destination, or is a directory that the destination
needs. -/
theorem changes_of_generate {o : Options} {s : Path.Surroundings} {d : Disk} (hd : d.WellFormed)
    (hs : Path.isAbsolute s.current = true) :
    Tree.Changes (o.destinationDirectory s) d (after (generate o s) d) := by
  rcases generate_after o s d with h | ⟨t, h⟩ <;> rw [h]
  · exact fun _ _ => .inl rfl
  · exact (Tree.sync_after hd (isAbsolute_destinationDirectory hs o)).2

/-- Generated files are contained in the destination:
* a path that is read reads back as itself, and is on disk that of the directory with plain names;
* whatever a run changes, also one that fails, lies inside the destination, apart from the
  destination and the directories above it that are made;
* a file and its temporary place lie inside the directory, unless the file has no name and is not
  written;
* if a generated path leads out of the destination, the run fails and the disk stays. -/
theorem generate_contained :
    (∀ path f, FilePath.parse path = .ok f → FilePath.parse f.text = .ok f ∧
      (∀ n ∈ f.segments, IsPlain n) ∧ ∀ directory,
        f.diskPath directory = f.segments.foldl Path.join directory ∧
        names (f.diskPath directory) = names directory ++ f.segments) ∧
    (∀ (o : Options) (s : Path.Surroundings) (d : Disk), d.WellFormed →
      Path.isAbsolute s.current = true →
        Tree.Changes (o.destinationDirectory s) d (after (generate o s) d)) ∧
    (∀ (directory : String) (f : FilePath × String),
      Inside directory (location (f.1.diskPath directory)) ∧
          Inside directory (location (temporaryPath (f.1.diskPath directory))) ∨
        ∀ d : Disk, d.isDirectory directory = true → after (syncFile directory f) d = d) ∧
    (∀ (o : Options) (s : Path.Surroundings) (d : Disk) (sc : Scan) (code : GeneratedCode),
      scan o s d = .ok sc → sc.generate o = .ok code →
        (∃ f ∈ code.files, Leaves (o.destinationDirectory s) f.path) →
          ∃ fault, Tree.build code.files = .error fault ∧
            (generate o s).run.run d = (.error (.output fault), d)) := by
  refine ⟨?_, ?_, ?_, ?_⟩
  · intro path f _
    refine ⟨f.parse_text, fun n hn => FilePath.isPlain_of_mem_segments hn, fun directory => ?_⟩
    exact ⟨rfl, FilePath.names_diskPath directory f⟩
  · intro o s d hd hs
    exact changes_of_generate hd hs
  · intro directory f
    by_cases hsegments : f.1.segments = []
    · exact .inr fun d hdirectory => syncFile_of_segments_nil hdirectory hsegments
    · exact .inl ⟨target_inside hsegments, temporary_inside hsegments⟩
  · rintro o s d sc code hscan hcode ⟨f, hf, hleaves⟩
    obtain ⟨fault, hfault⟩ := Tree.build_of_leaves hf hleaves
    exact ⟨fault, hfault, generate_of_build_error hscan hcode hfault⟩

/-- A disk with an empty source directory. -/
def sourceDisk : Disk where
  entries := [(["in"], .directory)]
  distinct := by decide

theorem sourceDisk_wellFormed : sourceDisk.WellFormed :=
  .of_entries fun _ he => ⟨[], "in", congrArg Prod.fst (List.mem_singleton.1 he), by decide, rfl⟩

theorem isDirectory_sourceDisk : sourceDisk.isDirectory "/in" = true := by
  have hplace := place_join (by decide : IsName "in") (isDirectory_root sourceDisk)
    (by decide +kernel)
  exact isDirectory_iff.2 ⟨_, hplace, rfl⟩

/-- Options with a manifest beside the destination. -/
def besideDestination : Options :=
  { Options.initial "/in" "/out" with generateSchema := true, schemaPath := "../Schema.json" }

theorem scan_sourceDisk :
    scan besideDestination ⟨"/", "/"⟩ sourceDisk =
      .ok (.ofModules ["ApiController"] Loader.empty.load) := by
  have hsource : besideDestination.sourceDirectory ⟨"/", "/"⟩ = "/in" := by decide +kernel
  have hnames : moduleNames sourceDisk "/in" [⟨"*.client.json"⟩] = [] := by decide +kernel
  exact scan_of_moduleNames [] (by rw [hsource, isDirectory_sourceDisk]) filePatterns_client
    (by rw [hsource, hnames])

theorem generate_contained_besideDestination :
    (∃ f, FilePath.parse ".\\models\\Widget.ts" = .ok f ∧ FilePath.parse f.text = .ok f ∧
      (∀ n ∈ f.segments, IsPlain n) ∧ ∀ directory,
        f.diskPath directory = f.segments.foldl Path.join directory ∧
        names (f.diskPath directory) = names directory ++ f.segments) ∧
    (sourceDisk.WellFormed ∧ Path.isAbsolute "/" = true ∧
      Tree.Changes (besideDestination.destinationDirectory ⟨"/", "/"⟩) sourceDisk
        (after (generate besideDestination ⟨"/", "/"⟩) sourceDisk)) ∧
    ∃ sc code, scan besideDestination ⟨"/", "/"⟩ sourceDisk = .ok sc ∧
      sc.generate besideDestination = .ok code ∧
      (∃ f ∈ code.files, Leaves (besideDestination.destinationDirectory ⟨"/", "/"⟩) f.path) ∧
      ∃ fault, Tree.build code.files = .error fault ∧
        (generate besideDestination ⟨"/", "/"⟩).run.run sourceDisk =
          (.error (.output fault), sourceDisk) := by
  obtain ⟨hpath, hchanges, _, hleaves⟩ := generate_contained
  refine ⟨?_, ⟨sourceDisk_wellFormed, by decide, ?_⟩, ?_⟩
  · have hparse : (FilePath.parse ".\\models\\Widget.ts").toOption.isSome = true := by
      decide +kernel
    obtain ⟨f, hf⟩ := exists_eq_ok hparse
    exact ⟨f, hf, hpath _ f hf⟩
  · exact hchanges _ _ _ sourceDisk_wellFormed (by decide)
  · have hpaths : ((Scan.ofModules ["ApiController"] Loader.empty.load).generate
        besideDestination).toOption.map (·.files.map (·.path)) =
          some ["index.ts", "../Schema.json"] := by
      decide +kernel
    obtain ⟨code, hcode, hpaths⟩ := Option.map_eq_some_iff.1 hpaths
    have hcode := eq_ok_of_toOption hcode
    have hmanifest : ∃ f ∈ code.files, f.path = "../Schema.json" :=
      List.mem_map.1 (hpaths ▸ by simp)
    obtain ⟨f, hf, hmanifest⟩ := hmanifest
    have hleaves' : Leaves (besideDestination.destinationDirectory ⟨"/", "/"⟩) f.path := by
      rw [hmanifest]
      exact .inr (.inl (by decide +kernel))
    exact ⟨_, code, scan_sourceDisk, hcode, ⟨f, hf, hleaves'⟩,
      hleaves _ _ _ _ code scan_sourceDisk hcode ⟨f, hf, hleaves'⟩⟩

end Run

end ApiClient
