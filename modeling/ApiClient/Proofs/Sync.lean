import ApiClient.Proofs.Disk.Changes
import ApiClient.Text.Order

/-!
# Synced directories

Every file of a tree is compared on its own, written through a temporary name if it differs, and
afterwards what does not belong to the tree is removed. No later step of this undoes an earlier one,
as long as the files have different paths and none has the temporary path of another.

Results:
* `syncFile_spec`, `syncFiles_spec`: what it means for one file and for all that they are synced.
* `sync_of_read`: a directory that is up to date stays as it is.
* `Tree.IsSynced`: what a sync reports on the tree and the disks before and after it.
* `sync_spec`: a sync that succeeds has this effect, and another one then changes nothing.
-/

namespace ApiClient

namespace Output

open Disk

variable {d d' : Disk} {directory : String} {f : FilePath × String} {l : Location}

/-! ## Places of files -/

/-- Where a file belongs on disk. -/
def target (directory : String) (f : FilePath × String) : Location :=
  location directory ++ f.1.segments

/-- Where a file is written before it is moved to its place. -/
def temporary (directory : String) (f : FilePath × String) : Location :=
  location (temporaryPath (f.1.diskPath directory))

/-- The disk holds a file with its bytes. -/
def UpToDate (d : Disk) (directory : String) (f : FilePath × String) : Prop :=
  d.file? (target directory f) = some f.2.toUTF8

instance : Decidable (UpToDate d directory f) :=
  inferInstanceAs (Decidable (_ = _))

/-- A file is written at the location before it is moved, in place of what is there. -/
def Replaced (d : Disk) (directory : String) (fs : List (FilePath × String)) (l : Location) :
    Prop :=
  ∃ f ∈ fs, ¬ UpToDate d directory f ∧ l = temporary directory f

instance {fs : List (FilePath × String)} : Decidable (Replaced d directory fs l) :=
  inferInstanceAs (Decidable (∃ f ∈ fs, _))

theorem replaced_nil : ¬ Replaced d directory [] l := by
  simp [Replaced]

theorem replaced_cons {fs : List (FilePath × String)} : Replaced d directory (f :: fs) l ↔
    ¬ UpToDate d directory f ∧ l = temporary directory f ∨ Replaced d directory fs l :=
  List.exists_mem_cons_iff _ _ _

theorem replaced_congr {fs : List (FilePath × String)}
    (h : ∀ f ∈ fs, UpToDate d' directory f ↔ UpToDate d directory f) :
    Replaced d' directory fs l ↔ Replaced d directory fs l :=
  exists_congr fun f => and_congr_right fun hf => by rw [h f hf]

theorem location_diskPath (directory : String) (f : FilePath × String) :
    location (f.1.diskPath directory) = target directory f :=
  f.1.location_diskPath directory

/-- The temporary name is that of the file with an ending. -/
theorem temporaryPath_diskPath {names : List String} {name : String}
    (h : f.1.segments = names ++ [name]) :
    temporaryPath (f.1.diskPath directory) =
      (names ++ [name ++ ".tmp"]).foldl Path.join directory := by
  have hname : IsName name := FilePath.isName_of_mem_segments (f := f.1) (by simp [h])
  rw [temporaryPath, FilePath.diskPath, h, List.foldl_append, List.foldl_append, List.foldl_cons,
    List.foldl_nil, List.foldl_cons, List.foldl_nil, hname.join_append]

theorem temporary_eq {names : List String} {name : String} (h : f.1.segments = names ++ [name]) :
    temporary directory f = location directory ++ (names ++ [name ++ ".tmp"]) := by
  have hnames : ∀ n ∈ names ++ [name ++ ".tmp"], IsName n := by
    intro n hn
    rcases List.mem_append.1 hn with hn | hn
    · exact FilePath.isName_of_mem_segments (f := f.1) (by simp [h, hn])
    · rw [List.mem_singleton.1 hn]
      exact (FilePath.isName_of_mem_segments (f := f.1) (by simp [h])).append_tmp
  rw [temporary, temporaryPath_diskPath h, location_foldl_join hnames]

/-- Locations inside the directory tell paths apart. -/
theorem foldl_join_eq_temporaryPath {names : List String} (hsegments : f.1.segments ≠ [])
    (h : location directory ++ names = temporary directory f) :
    names.foldl Path.join directory = temporaryPath (f.1.diskPath directory) := by
  obtain ⟨init, last, hlast⟩ := (List.eq_nil_or_concat' f.1.segments).resolve_left hsegments
  rw [temporary_eq hlast] at h
  rw [temporaryPath_diskPath hlast, List.append_cancel_left h]

/-! ## One file -/

theorem getLast?_diskPath (hsegments : f.1.segments ≠ []) :
    (f.1.diskPath directory).toList.getLast? ≠ some '/' := by
  obtain ⟨names, name, h⟩ := (List.eq_nil_or_concat' f.1.segments).resolve_left hsegments
  have hname : IsName name := FilePath.isName_of_mem_segments (f := f.1) (by simp [h])
  rw [FilePath.diskPath, h, List.foldl_append, List.foldl_cons, List.foldl_nil]
  exact hname.getLast?_join _

theorem read_of_upToDate (hsegments : f.1.segments ≠ [])
    (hplace : d.place (f.1.diskPath directory) = .ok (target directory f))
    (h : UpToDate d directory f) : d.read (f.1.diskPath directory) = .ok f.2.toUTF8 :=
  read_eq_ok.2 ⟨_, hplace, h, getLast?_diskPath hsegments⟩

theorem upToDate_of_read (h : d.read (f.1.diskPath directory) = .ok f.2.toUTF8) :
    d.place (f.1.diskPath directory) = .ok (target directory f) ∧ UpToDate d directory f := by
  obtain ⟨l, hplace, hl, _⟩ := read_eq_ok.1 h
  obtain rfl := (place_eq_location hplace).trans (location_diskPath directory f)
  exact ⟨hplace, hl⟩

theorem bytes_beq_iff {a b : ByteArray} : (a == b) = true ↔ a = b := by
  change (a.data == b.data) = true ↔ a = b
  rw [beq_iff_eq, ByteArray.ext_iff]

theorem holds_spec {path content : String} {same : Bool}
    (h : Succeeds (holds path content) d same d') :
    d' = d ∧ (same = true ↔ d.read path = .ok content.toUTF8) ∧ ¬ d.isDirectory path = true := by
  rw [holds, succeeds_ask] at h
  obtain ⟨h, rfl⟩ := h
  refine ⟨rfl, ?_, fun hdirectory => ?_⟩
  · cases hread : d.read path with
    | error fault =>
      rw [hread] at h
      cases fault <;> simp_all
    | ok bytes =>
      rw [hread] at h
      rw [← Except.ok.inj h, bytes_beq_iff, Except.ok.injEq]
  · rw [read_of_isDirectory hdirectory] at h
    simp at h

/-- A file with the right bytes lies below directories, so its path leads to it on this disk if it
does so on another one. -/
theorem not_upToDate_of_place (hsegments : f.1.segments ≠ [])
    (hdirectory : d.isDirectory directory = true) (hdirectory' : d'.isDirectory directory = true)
    (hreaches : d.file? (target directory f) ≠ none → d.Reaches (target directory f))
    (hplace : d'.place (f.1.diskPath directory) = .ok (target directory f))
    (hread : d.read (f.1.diskPath directory) ≠ .ok f.2.toUTF8) : ¬ UpToDate d directory f := by
  intro hup
  have hreach := hreaches (by rw [show d.file? _ = _ from hup]; simp)
  refine hread (read_of_upToDate hsegments ?_ hup)
  exact FilePath.place_of_reaches hdirectory hdirectory' hreach hplace

/-- After a file is synced it is up to date. It was written if it was not before, and then nothing
is left under its temporary name; all other files stay. -/
theorem syncFile_spec {written : Bool} (hdirectory : d.isDirectory directory = true)
    (hreaches : d.file? (target directory f) ≠ none → d.Reaches (target directory f))
    (h : Succeeds (syncFile directory f) d written d') :
    written = !decide (UpToDate d directory f) ∧
      f.1.segments ≠ [] ∧
      d.KeepsDirectories d' ∧
      d'.read (f.1.diskPath directory) = .ok f.2.toUTF8 ∧
      ∀ l, d'.file? l =
        if l = target directory f then some f.2.toUTF8
        else if ¬ UpToDate d directory f ∧ l = temporary directory f then none
        else d.file? l := by
  simp only [syncFile, succeeds_bind] at h
  obtain ⟨same, d₁, hholds, h⟩ := h
  obtain ⟨rfl, hsame, hfile⟩ := holds_spec hholds
  have hsegments : f.1.segments ≠ [] := by
    intro hnil
    rw [FilePath.diskPath, hnil, List.foldl_nil] at hfile
    exact hfile hdirectory
  by_cases hread : d₁.read (f.1.diskPath directory) = .ok f.2.toUTF8
  · rw [if_pos (hsame.2 hread), succeeds_pure] at h
    obtain ⟨rfl, rfl⟩ := h
    have hup := (upToDate_of_read hread).2
    refine ⟨by simp [hup], hsegments, fun _ h => h, hread, fun l => ?_⟩
    split
    · rename_i h
      rw [h]
      exact hup
    · rw [if_neg fun h => h.1 hup]
  · rw [if_neg (mt hsame.1 hread)] at h
    simp only [succeeds_bind, succeeds_pure] at h
    obtain ⟨_, d₂, hwrite, rfl, rfl⟩ := h
    obtain ⟨hkeeps, hplace, hget⟩ := writeFile_spec hwrite
    rw [location_diskPath] at hplace hget
    have hup' : UpToDate d₂ directory f := (hget _).trans (if_pos rfl)
    have hup : ¬ UpToDate d₁ directory f := not_upToDate_of_place hsegments hdirectory
      (hkeeps.isDirectory hdirectory) hreaches hplace hread
    refine ⟨by simp [hup], hsegments, hkeeps, read_of_upToDate hsegments hplace hup', fun l => ?_⟩
    rw [hget]
    split
    · rfl
    · simp only [hup, not_false_eq_true, true_and]
      rfl

/-! ## All files -/

theorem target_ne_temporary {g : FilePath × String} (hsegments : g.1.segments ≠ [])
    (h : f.1.diskPath directory ≠ temporaryPath (g.1.diskPath directory)) :
    target directory f ≠ temporary directory g :=
  mt (foldl_join_eq_temporaryPath hsegments) h

/-- The files are brought up to date one after the other. None is at the place of another one or
under its temporary name, so each is found as it was at first and stays as it was synced. -/
theorem syncFiles_spec {fs : List (FilePath × String)} {results : List (String × Bool)}
    (hdirectory : d.isDirectory directory = true)
    (hreaches : ∀ f ∈ fs, d.file? (target directory f) ≠ none → d.Reaches (target directory f))
    (hdistinct : (fs.map (target directory)).Nodup)
    (htemporary : ∀ f ∈ fs, ∀ g ∈ fs,
      f.1.diskPath directory ≠ temporaryPath (g.1.diskPath directory))
    (h : Succeeds (syncFiles directory fs) d results d') :
    results = fs.map (fun f => (f.1.text, !decide (UpToDate d directory f))) ∧
      d.KeepsDirectories d' ∧
      (∀ f ∈ fs, f.1.segments ≠ [] ∧ d'.read (f.1.diskPath directory) = .ok f.2.toUTF8) ∧
      ∀ l, (∀ f ∈ fs, l ≠ target directory f) →
        d'.file? l = if Replaced d directory fs l then none else d.file? l := by
  induction fs generalizing d results with
  | nil =>
    obtain ⟨rfl, rfl⟩ := succeeds_pure.1 h
    exact ⟨rfl, fun _ h => h, by simp, fun l _ => (if_neg replaced_nil).symm⟩
  | cons f fs ih =>
    simp only [syncFiles, succeeds_bind, succeeds_pure] at h
    obtain ⟨written, d₁, hfile, rest, _, hrest, rfl, rfl⟩ := h
    obtain ⟨rfl, hsegments, hkeep, hread, hget⟩ :=
      syncFile_spec hdirectory (hreaches f (.head _)) hfile
    rw [List.map_cons, List.nodup_cons] at hdistinct
    have hne : ∀ g ∈ fs, target directory g ≠ target directory f := fun g hg he =>
      hdistinct.1 (he ▸ List.mem_map_of_mem hg)
    have hsame : ∀ g ∈ fs, d₁.file? (target directory g) = d.file? (target directory g) := by
      intro g hg
      have htarget := target_ne_temporary hsegments (htemporary g (.tail _ hg) f (.head _))
      rw [hget, if_neg (hne g hg), if_neg fun h => htarget h.2]
    have hup : ∀ g ∈ fs, UpToDate d₁ directory g ↔ UpToDate d directory g := by
      intro g hg
      rw [UpToDate, UpToDate, hsame g hg]
    obtain ⟨rfl, hkeep', hread', hget'⟩ := ih (hkeep.isDirectory hdirectory)
      (fun g hg hfile => (hreaches g (.tail _ hg) (hsame g hg ▸ hfile)).mono hkeep) hdistinct.2
      (fun g hg g' hg' => htemporary g (.tail _ hg) g' (.tail _ hg')) hrest
    refine ⟨?_, hkeep.trans hkeep', ?_, ?_⟩
    · rw [List.map_cons]
      refine congrArg (List.cons _) (List.map_congr_left fun g hg => ?_)
      rw [decide_eq_decide.2 (hup g hg)]
    · intro g hg
      rcases List.mem_cons.1 hg with rfl | hg
      · obtain ⟨hplace, hup⟩ := upToDate_of_read hread
        refine ⟨hsegments, read_of_upToDate hsegments (place_mono hkeep' hplace) ?_⟩
        rw [UpToDate, hget' _ fun g' hg' => (hne g' hg').symm, if_neg]
        · exact hup
        · rintro ⟨g', hg', _, he⟩
          have hpath := htemporary g (.head _) g' (.tail _ hg')
          exact target_ne_temporary (hread' g' hg').1 hpath he
      · exact hread' g hg
    · intro l hl
      rw [hget' l fun g hg => hl g (.tail _ hg), hget, if_neg (hl f (.head _))]
      simp only [replaced_congr hup, replaced_cons]
      by_cases hreplaced : Replaced d directory fs l
      · rw [if_pos hreplaced, if_pos (.inr hreplaced)]
      · simp only [hreplaced, or_false, if_false]

theorem syncFiles_of_read {fs : List (FilePath × String)}
    (h : ∀ f ∈ fs, d.read (f.1.diskPath directory) = .ok f.2.toUTF8) :
    Succeeds (syncFiles directory fs) d (fs.map fun f => (f.1.text, false)) d := by
  induction fs with
  | nil => exact succeeds_pure.2 ⟨rfl, rfl⟩
  | cons f fs ih =>
    have hholds : Succeeds (holds (f.1.diskPath directory) f.2) d true d := by
      rw [holds, succeeds_ask, h f (.head _)]
      exact ⟨congrArg Except.ok (bytes_beq_iff.2 rfl), rfl⟩
    simp only [syncFiles, syncFile, succeeds_bind]
    exact ⟨false, d, ⟨true, d, hholds, succeeds_pure.2 ⟨rfl, rfl⟩⟩, _, d,
      ih fun g hg => h g (.tail _ hg), succeeds_pure.2 ⟨rfl, rfl⟩⟩

end Output

namespace Tree

open Disk Output

variable {t : Tree} {directory : String} {d d' : Disk}

/-! ## Owned names -/

theorem mem_files {f : FilePath × String} : f ∈ t.files ↔ f ∈ t.entries :=
  (Text.sortByText_perm _ _).mem_iff

theorem files_pairwise_lt (t : Tree) : t.files.Pairwise fun f g => f.1.text < g.1.text := by
  refine Text.sortByText_pairwise_lt ?_
  rw [show (fun f : FilePath × String => f.1.text) = FilePath.text ∘ Prod.fst from rfl,
    ← List.map_map]
  refine t.distinct.map fun p q h => ?_
  cases p
  cases q
  simpa using h

theorem mem_ownedNames {name : String} :
    name ∈ t.ownedNames ↔ ∃ f ∈ t.files, Text.lower f.1.topLevel = name := by
  rw [ownedNames, (Text.sortByText_perm _ _).mem_iff, mem_distinctBy_id]
  simp [mem_files]

theorem mem_stale {names : List String} {name : String} :
    name ∈ t.stale names ↔ name ∈ names ∧ Text.lower name ∉ t.ownedNames := by
  simp [stale]

theorem stale_eq (t : Tree) (names : List String) : t.stale names =
    names.filter fun name =>
      !(t.entries.map fun f => Text.lower f.1.topLevel).contains (Text.lower name) := by
  refine List.filter_congr fun name _ => congrArg (!·) ?_
  rw [Bool.eq_iff_iff, List.contains_iff_mem, List.contains_iff_mem, mem_ownedNames]
  simp [mem_files]

/-- A name that does not belong to the tree is not that of one of its files. -/
theorem ne_target {name : String} (h : Text.lower name ∉ t.ownedNames) :
    ∀ f ∈ t.files, location directory ++ [name] ≠ target directory f := by
  intro f hf he
  have hsegments : f.1.segments = [name] := (List.append_cancel_left he).symm
  exact h (mem_ownedNames.2 ⟨f, hf, by rw [FilePath.topLevel, hsegments]; rfl⟩)

/-! ## The whole tree -/

/-- What a sync reports on the tree and the disks before and after it. -/
structure IsSynced (t : Tree) (directory : String) (d d' : Disk) (r : SyncReport) : Prop where
  destination : r.destination = directory
  read : ∀ f ∈ t.files, d'.read (f.1.diskPath directory) = .ok f.2.toUTF8
  owned : ∀ name ∈ d'.fileNames (location directory), Text.lower name ∈ t.ownedNames
  written : r.written = (t.files.filter fun f => ¬ UpToDate d directory f).map (·.1.text)
  written_sorted : r.written.Pairwise (· < ·)
  unchanged : r.unchanged = (t.files.filter fun f => UpToDate d directory f).map (·.1.text)
  unchanged_sorted : r.unchanged.Pairwise (· < ·)
  /-- All files go that do not belong to the tree, except that those under the temporary name of a
  written file are replaced. -/
  mem_deleted : ∀ name, name ∈ r.deleted ↔
    name ∈ d.fileNames (location directory) ∧ Text.lower name ∉ t.ownedNames ∧
      ¬ ∃ f ∈ t.files, ¬ UpToDate d directory f ∧
        Path.join directory name = temporaryPath (f.1.diskPath directory)
  deleted_sorted : r.deleted.Pairwise (· < ·)

/-- In a directory that holds the tree, a sync removes what does not belong to it and does nothing
else. -/
theorem sync_of_removeFiles {u : Unit} (hdirectory : d.isDirectory directory = true)
    (hread : ∀ f ∈ t.files, d.read (f.1.diskPath directory) = .ok f.2.toUTF8)
    (hremove : Succeeds (removeFiles directory (t.stale (d.fileNames (location directory)))) d u
      d') :
    Succeeds (t.sync directory) d
      { destination := directory, written := [], unchanged := t.files.map (·.1.text),
        deleted := Text.sortByText id (t.stale (d.fileNames (location directory))) } d' := by
  obtain ⟨l, hplace, hl⟩ := isDirectory_iff.1 hdirectory
  obtain rfl := place_eq_location hplace
  simp only [sync, succeeds_bind, succeeds_adapt, succeeds_ask]
  refine ⟨(), d, makeDirectories_of_isDirectory hdirectory, _, d, syncFiles_of_read hread,
    _, d, ⟨files_eq_ok.2 ⟨_, hplace, hl, rfl⟩, rfl⟩, u, d', hremove, succeeds_pure.2 ⟨?_, rfl⟩⟩
  simp [List.filter_map, Function.comp_def]

/-- A directory that holds the tree and no other files is left as it is. -/
theorem sync_of_read (hdirectory : d.isDirectory directory = true)
    (hread : ∀ f ∈ t.files, d.read (f.1.diskPath directory) = .ok f.2.toUTF8)
    (howned : ∀ name ∈ d.fileNames (location directory), Text.lower name ∈ t.ownedNames) :
    Succeeds (t.sync directory) d
      { destination := directory, written := [], unchanged := t.files.map (·.1.text),
        deleted := [] } d := by
  have hstale : t.stale (d.fileNames (location directory)) = [] :=
    List.eq_nil_iff_forall_not_mem.2 fun name hname =>
      (mem_stale.1 hname).2 (howned name (mem_stale.1 hname).1)
  have hremove : Succeeds (removeFiles directory (t.stale (d.fileNames (location directory)))) d ()
      d := by
    rw [hstale]
    exact succeeds_pure.2 ⟨rfl, rfl⟩
  have hsync := sync_of_removeFiles hdirectory hread hremove
  rw [hstale] at hsync
  simpa [Text.sortByText] using hsync

/-- A name inside the directory is a temporary one by its path or by its location. -/
theorem join_eq_temporaryPath_iff {name : String} {f : FilePath × String} (hname : IsName name)
    (hsegments : f.1.segments ≠ []) :
    Path.join directory name = temporaryPath (f.1.diskPath directory) ↔
      location directory ++ [name] = temporary directory f := by
  constructor
  · intro h
    rw [temporary, ← h, hname.location_join]
  · intro h
    exact foldl_join_eq_temporaryPath hsegments h

theorem pairwise_lt_map_filter (p : FilePath × String → Bool) :
    ((t.files.filter p).map (·.1.text)).Pairwise (· < ·) :=
  List.pairwise_map.2 (t.files_pairwise_lt.filter p)

/-- The first part of a sync: the directory is made and the files are brought up to date. -/
theorem syncFiles_files_spec {d₀ : Disk} {u : Unit} {results : List (String × Bool)}
    (hd : d.WellFormed) (hdistinct : (t.files.map fun f => f.1.diskPath directory).Nodup)
    (htemporary : ∀ f ∈ t.files, ∀ g ∈ t.files,
      f.1.diskPath directory ≠ temporaryPath (g.1.diskPath directory))
    (hmake : Succeeds (makeDirectories directory) d u d₀)
    (hfiles : Succeeds (syncFiles directory t.files) d₀ results d') :
    results = t.files.map (fun f => (f.1.text, !decide (UpToDate d directory f))) ∧
      d'.isDirectory directory = true ∧
      (∀ f ∈ t.files,
        f.1.segments ≠ [] ∧ d'.read (f.1.diskPath directory) = .ok f.2.toUTF8) ∧
      ∀ l, (∀ f ∈ t.files, l ≠ target directory f) →
        d'.file? l = if Replaced d directory t.files l then none else d.file? l := by
  obtain ⟨hextends, hdirectory⟩ := makeDirectories_spec hmake
  have hsame := hextends.file?_eq
  have hreaches : ∀ f ∈ t.files, d₀.file? (target directory f) ≠ none →
      d₀.Reaches (target directory f) := by
    intro f _ hf
    rw [hsame] at hf
    refine (hd.reaches fun hnone => hf ?_).mono hextends.keepsDirectories
    rw [file?, hnone]
  have htargets : (t.files.map (target directory)).Nodup := by
    refine List.Nodup.of_map
      (fun l => (l.drop (location directory).length).foldl Path.join directory) ?_
    rw [List.map_map]
    simpa [Function.comp_def, target, FilePath.diskPath] using hdistinct
  obtain ⟨hresults, hkeep, hread, hget⟩ :=
    syncFiles_spec hdirectory hreaches htargets htemporary hfiles
  have hup : UpToDate d₀ directory = UpToDate d directory :=
    funext fun f => by rw [UpToDate, UpToDate, hsame]
  simp only [Replaced, hup, hsame] at hresults hget
  exact ⟨hresults, hkeep.isDirectory hdirectory, hread, hget⟩

theorem isName_of_mem_fileNames (hd : d.WellFormed) {l : Location} {name : String}
    (h : name ∈ d.fileNames l) : IsName name := by
  obtain ⟨c, hc⟩ := mem_fileNames.1 h
  exact hd.isName l name (by simp [file?_eq_some_iff.1 hc])

/-- What is removed was there at first and was not replaced. -/
theorem mem_stale_fileNames (hd : d.WellFormed) (hsegments : ∀ f ∈ t.files, f.1.segments ≠ [])
    (hget : ∀ l, (∀ f ∈ t.files, l ≠ target directory f) →
      d'.file? l = if Replaced d directory t.files l then none else d.file? l) (name : String) :
    name ∈ t.stale (d'.fileNames (location directory)) ↔
      name ∈ d.fileNames (location directory) ∧ Text.lower name ∉ t.ownedNames ∧
        ¬ ∃ f ∈ t.files, ¬ UpToDate d directory f ∧
          Path.join directory name = temporaryPath (f.1.diskPath directory) := by
  have hpath : name ∈ d.fileNames (location directory) →
      ((∃ f ∈ t.files, ¬ UpToDate d directory f ∧
          Path.join directory name = temporaryPath (f.1.diskPath directory)) ↔
        Replaced d directory t.files (location directory ++ [name])) := by
    intro hname
    refine exists_congr fun f => and_congr_right fun hf => and_congr_right fun _ => ?_
    exact join_eq_temporaryPath_iff (isName_of_mem_fileNames hd hname) (hsegments f hf)
  rw [mem_stale, mem_fileNames]
  constructor
  · rintro ⟨⟨c, hc⟩, howned⟩
    rw [hget _ (ne_target howned)] at hc
    obtain ⟨hreplaced, hfile⟩ := Option.ite_none_left_eq_some.1 hc
    have hname := mem_fileNames.2 ⟨c, hfile⟩
    exact ⟨hname, howned, mt (hpath hname).1 hreplaced⟩
  · rintro ⟨hname, howned, hreplaced⟩
    obtain ⟨c, hfile⟩ := mem_fileNames.1 hname
    refine ⟨⟨c, ?_⟩, howned⟩
    rw [hget _ (ne_target howned), if_neg (mt (hpath hname).2 hreplaced), hfile]

/-- The second part of a sync: the files that do not belong to the tree are removed, those of the
tree stay. -/
theorem removeFiles_stale_spec {u : Unit}
    (hnames : ∀ name ∈ t.stale (d.fileNames (location directory)), IsName name)
    (hread : ∀ f ∈ t.files,
      f.1.segments ≠ [] ∧ d.read (f.1.diskPath directory) = .ok f.2.toUTF8)
    (h : Succeeds (removeFiles directory (t.stale (d.fileNames (location directory)))) d u d') :
    d.KeepsDirectories d' ∧
      (∀ f ∈ t.files, d'.read (f.1.diskPath directory) = .ok f.2.toUTF8) ∧
      ∀ name ∈ d'.fileNames (location directory), Text.lower name ∈ t.ownedNames := by
  obtain ⟨hkeep, hget⟩ := removeFiles_spec hnames h
  refine ⟨hkeep, fun f hf => ?_, fun name hname => ?_⟩
  · obtain ⟨hsegments, hread⟩ := hread f hf
    obtain ⟨hplace, hup⟩ := upToDate_of_read hread
    refine read_of_upToDate hsegments (place_mono hkeep hplace) ?_
    rw [UpToDate, file?, hget, if_neg]
    · exact hup
    · rintro ⟨name, hname, he⟩
      exact ne_target (mem_stale.1 hname).2 f hf he.symm
  · obtain ⟨c, hc⟩ := mem_fileNames.1 hname
    rw [file?_eq_some_iff, hget] at hc
    obtain ⟨hkept, hfile⟩ := Option.ite_none_left_eq_some.1 hc
    by_contra howned
    refine hkept ⟨name, mem_stale.2 ⟨?_, howned⟩, rfl⟩
    exact mem_fileNames.2 ⟨c, file?_eq_some_iff.2 hfile⟩

/-- A sync that succeeds brings the directory up to date, and another one then changes nothing. -/
theorem sync_spec {r : SyncReport} (hd : d.WellFormed)
    (hdistinct : (t.files.map fun f => f.1.diskPath directory).Nodup)
    (htemporary : ∀ f ∈ t.files, ∀ g ∈ t.files,
      f.1.diskPath directory ≠ temporaryPath (g.1.diskPath directory))
    (h : Succeeds (t.sync directory) d r d') :
    t.IsSynced directory d d' r ∧
      Succeeds (t.sync directory) d'
        { destination := directory, written := [], unchanged := t.files.map (·.1.text),
          deleted := [] } d' := by
  simp only [sync, succeeds_bind, succeeds_adapt, succeeds_ask, succeeds_pure] at h
  obtain ⟨_, d₀, hmake, results, d₁, hfiles, names, _, ⟨hnames, rfl⟩, _, d₂, hremove, rfl, rfl⟩ := h
  obtain ⟨rfl, hdirectory, hread, hget⟩ :=
    syncFiles_files_spec hd hdistinct htemporary hmake hfiles
  obtain ⟨l, hplace, _, rfl⟩ := files_eq_ok.1 hnames
  obtain rfl := place_eq_location hplace
  have hstale := mem_stale_fileNames hd (fun f hf => (hread f hf).1) hget
  obtain ⟨hkeep, hread', howned⟩ := removeFiles_stale_spec
    (fun name hname => isName_of_mem_fileNames hd ((hstale name).1 hname).1) hread hremove
  have hdeleted : (Text.sortByText id (t.stale (d₁.fileNames (location directory)))).Pairwise
      (· < ·) := by
    refine Text.sortByText_pairwise_lt ?_
    rw [List.map_id']
    exact (fileNames_nodup _ _).filter _
  have hwritten : ((t.files.map fun f => (f.1.text, !decide (UpToDate d directory f))).filter
      (·.2)).map (·.1) = (t.files.filter fun f => ¬ UpToDate d directory f).map (·.1.text) := by
    simp [List.filter_map, Function.comp_def]
  have hunchanged : ((t.files.map fun f => (f.1.text, !decide (UpToDate d directory f))).filter
      (!·.2)).map (·.1) = (t.files.filter fun f => UpToDate d directory f).map (·.1.text) := by
    simp [List.filter_map, Function.comp_def]
  refine ⟨?_, sync_of_read (hkeep.isDirectory hdirectory) hread' howned⟩
  exact {
    destination := rfl
    read := hread'
    owned := howned
    written := hwritten
    written_sorted := hwritten ▸ pairwise_lt_map_filter _
    unchanged := hunchanged
    unchanged_sorted := hunchanged ▸ pairwise_lt_map_filter _
    mem_deleted := fun name => ((Text.sortByText_perm _ _).mem_iff).trans (hstale name)
    deleted_sorted := hdeleted }

/-! ## One file and one that does not belong -/

/-- A tree with one file. -/
def indexTree : Tree where
  entries := [(⟨"index.ts", by decide, by decide⟩, "export {};\n")]
  distinct := by simp

/-- A disk with a file that does not belong to the tree. -/
def staleDisk : Disk where
  entries := [(["Old.ts"], .file ByteArray.empty)]
  distinct := by decide

theorem staleDisk_wellFormed : staleDisk.WellFormed :=
  .of_entries fun _ he => ⟨[], "Old.ts", congrArg Prod.fst (List.mem_singleton.1 he), by decide, rfl⟩

theorem files_indexTree : indexTree.files = indexTree.entries := by
  simp [files, Text.sortByText, indexTree]

theorem diskPath_indexTree : ∀ f ∈ indexTree.files, f.1.diskPath "/" = "/index.ts" := by
  rw [files_indexTree]
  decide +kernel

theorem ownedNames_indexTree : indexTree.ownedNames = ["index.ts"] := by
  have hnames : indexTree.entries.map (fun f => Text.lower f.1.topLevel) = ["index.ts"] := by
    decide +kernel
  simp [ownedNames, hnames, Text.sortByText, distinctBy]

/-- A file that is missing is written, and one that does not belong to the tree is removed. -/
theorem sync_staleDisk : ∃ d', Succeeds (indexTree.sync "/") staleDisk
    ⟨"/", ["index.ts"], [], ["Old.ts"]⟩ d' := by
  have hroot : ∀ d : Disk, d.place "/" = .ok [] := by
    intro d
    rw [place, show names "/" = [] by decide +kernel]
    simp [maxPath, show "/".utf8ByteSize = 1 by decide +kernel]
  have hplace : ∀ d : Disk,
      ∀ p ∈ [("/index.ts", "index.ts"), (temporaryPath "/index.ts", "index.ts.tmp"),
        ("/Old.ts", "Old.ts")], d.place p.1 = .ok [p.2] ∧ p.1.toList.getLast? ≠ some '/' := by
    intro d p hp
    have hpath : ∀ p ∈ [("/index.ts", "index.ts"), (temporaryPath "/index.ts", "index.ts.tmp"),
        ("/Old.ts", "Old.ts")], names p.1 = [] ++ [p.2] ∧ '\x00' ∉ p.1.toList ∧
          p.1.utf8ByteSize < maxPath ∧ (step [] p.2).toOption = some [p.2] ∧
          p.1.toList.getLast? ≠ some '/' := by
      decide +kernel
    obtain ⟨hnames, hnul, hshort, hstep, hslash⟩ := hpath p hp
    refine ⟨(place_eq_ok hnames).2 ⟨by simpa using hnul, hshort, [], rfl, ?_⟩, hslash⟩
    cases h : step [] p.2 <;> simp_all [Except.toOption]
  have hindex : ∀ d : Disk, d.place "/index.ts" = .ok ["index.ts"] :=
    fun d => (hplace d (_, _) (by simp)).1
  have hmake : Succeeds (makeDirectories "/") staleDisk () staleDisk :=
    makeDirectories_of_isDirectory (isDirectory_iff.2 ⟨[], hroot _, rfl⟩)
  have hholds : Succeeds (holds "/index.ts" "export {};\n") staleDisk false staleDisk := by
    rw [holds, succeeds_ask, read_of_none (hindex _) rfl]
    exact ⟨rfl, rfl⟩
  have hwrite : ∃ d₁ d₂, Succeeds (writeFile "/index.ts" "export {};\n") staleDisk () d₁ ∧
      d₁.files "/" = .ok ["index.ts", "Old.ts"] ∧ d₁.remove "/Old.ts" = .ok d₂ := by
    simp only [writeFile, show Path.parent? "/index.ts" = some "/" by decide +kernel, succeeds_bind,
      succeeds_adapt, succeeds_attempt]
    have htemporary := fun d => hplace d (temporaryPath "/index.ts", "index.ts.tmp") (by simp)
    have hold := fun d => hplace d ("/Old.ts", "Old.ts") (by simp)
    refine ⟨_, _, ⟨(), _, hmake, (), _,
        write_eq_ok.2 ⟨_, (htemporary _).1, ?_, rfl⟩,
        rename_eq_ok.2 ⟨_, .file _, _, find_eq_ok.2 ⟨(htemporary _).1, rfl, ?_⟩, hindex _, ?_, rfl⟩⟩,
      files_eq_ok.2 ⟨_, hroot _, rfl, ?_⟩,
      remove_eq_ok.2 ⟨_, _, find_eq_ok.2 ⟨(hold _).1, rfl, ?_⟩, rfl⟩⟩
    · exact Eq.trans_ne (rfl : _ = none) (Option.some_ne_none _).symm
    · exact fun h => absurd h (htemporary staleDisk).2
    · exact Eq.trans_ne (rfl : _ = none) (Option.some_ne_none _).symm
    · rfl
    · exact fun h => absurd h (hold staleDisk).2
  obtain ⟨d₁, d₂, hwrite, hfiles, hremove⟩ := hwrite
  have hsync : Succeeds (syncFiles "/" indexTree.files) staleDisk [("index.ts", true)] d₁ := by
    have hpath := diskPath_indexTree
    rw [files_indexTree] at hpath ⊢
    simp only [indexTree, syncFiles, syncFile, succeeds_bind]
    rw [hpath _ (.head _)]
    exact ⟨true, d₁, ⟨false, _, hholds, succeeds_bind.2 ⟨(), d₁, hwrite, rfl⟩⟩, [], d₁, rfl, rfl⟩
  have hstale : indexTree.stale ["index.ts", "Old.ts"] = ["Old.ts"] := by
    rw [stale, ownedNames_indexTree]
    decide +kernel
  refine ⟨d₂, ?_⟩
  simp only [sync, succeeds_bind, succeeds_adapt, succeeds_ask, succeeds_pure]
  refine ⟨(), _, hmake, _, d₁, hsync, _, d₁, ⟨hfiles, rfl⟩, (), d₂, ?_, ?_, rfl⟩
  · rw [hstale]
    simp only [removeFiles, succeeds_bind, succeeds_attempt,
      show Path.join "/" "Old.ts" = "/Old.ts" by decide +kernel]
    exact ⟨(), d₂, hremove, rfl⟩
  · simp [hstale, Text.sortByText]

theorem sync_spec_staleDisk : ∃ d',
    Succeeds (indexTree.sync "/") staleDisk ⟨"/", ["index.ts"], [], ["Old.ts"]⟩ d' ∧
      indexTree.IsSynced "/" staleDisk d' ⟨"/", ["index.ts"], [], ["Old.ts"]⟩ ∧
      Succeeds (indexTree.sync "/") d' ⟨"/", [], ["index.ts"], []⟩ d' := by
  have hdistinct : (indexTree.files.map fun f => f.1.diskPath "/").Nodup := by
    rw [files_indexTree]
    simp [indexTree]
  have htemporary : ∀ f ∈ indexTree.files, ∀ g ∈ indexTree.files,
      f.1.diskPath "/" ≠ temporaryPath (g.1.diskPath "/") := by
    intro f hf g hg
    rw [diskPath_indexTree f hf, diskPath_indexTree g hg]
    decide +kernel
  obtain ⟨d', hsync⟩ := sync_staleDisk
  obtain ⟨hsynced, hagain⟩ := sync_spec staleDisk_wellFormed hdistinct htemporary hsync
  rw [files_indexTree] at hagain
  exact ⟨d', hsync, hsynced, hagain⟩

end Tree

end ApiClient
