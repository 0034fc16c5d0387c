import ApiClient.Output.Sync
import ApiClient.Proofs.Disk.Actions
import ApiClient.Proofs.Disk.Places

/-!
# What changes leave alone

Results:
* `makeDirectories_spec`: making a directory adds directories and nothing else.
* `makeDirectories_of_isDirectory`: a directory that is there stays as it is.
* `writeFile_spec`: writing a file sets it and removes what was beside it under its temporary name;
  all other files and all directories stay.
* `exists_writeFile`: what it takes that a file can be written.
* `removeFiles_spec`: removing files from a directory removes these and nothing else.
-/

namespace ApiClient

namespace Disk

variable {d d' d'' : Disk} {l : Location} {p : String} {u : Unit}

/-! ## More directories -/

/-- The second disk has what the first one has, and directories besides. -/
def Extends (d d' : Disk) : Prop :=
  ∀ l, d'.get? l = d.get? l ∨ d.get? l = none ∧ d'.get? l = some .directory

namespace Extends

theorem refl (d : Disk) : d.Extends d :=
  fun _ => .inl rfl

theorem trans (h : d.Extends d') (h' : d'.Extends d'') : d.Extends d'' := by
  intro l
  rcases h l with hl | ⟨hnone, hl⟩ <;> rcases h' l with hl' | ⟨hnone', hl'⟩
  · exact .inl (hl'.trans hl)
  · exact .inr ⟨hl ▸ hnone', hl'⟩
  · exact .inr ⟨hnone, hl'.trans hl⟩
  · exact .inr ⟨hnone, hl'⟩

theorem keepsDirectories (h : d.Extends d') : d.KeepsDirectories d' := by
  intro l hl
  rcases h l with he | ⟨_, he⟩
  · exact he.trans hl
  · exact he

theorem file?_eq (h : d.Extends d') (l : Location) : d'.file? l = d.file? l := by
  unfold file?
  rcases h l with he | ⟨hnone, he⟩
  · rw [he]
  · rw [hnone, he]

end Extends

theorem KeepsDirectories.isDirectory (h : d.KeepsDirectories d') (hd : d.isDirectory p = true) :
    d'.isDirectory p = true := by
  obtain ⟨l, hplace, hl⟩ := isDirectory_iff.1 hd
  exact isDirectory_iff.2 ⟨l, place_mono h hplace, h l hl⟩

theorem ne_nil_of_not_directory (h : d.get? l ≠ some .directory) : l ≠ [] := by
  rintro rfl
  exact h (get?_nil d)

theorem ne_nil_of_none (h : d.get? l = none) : l ≠ [] := by
  rintro rfl
  simp at h

theorem put_directory_extends (h : d.get? l = none) : d.Extends (d.put l .directory) := by
  have hl := ne_nil_of_none h
  intro m
  rw [get?_put hl]
  split
  · rename_i hm
    exact .inr ⟨hm ▸ h, rfl⟩
  · exact .inl rfl

theorem ensureDirectory_spec (h : Succeeds (ensureDirectory p) d u d') :
    d.Extends d' ∧ d'.isDirectory p = true := by
  simp only [ensureDirectory, succeeds_bind, succeeds_get] at h
  obtain ⟨_, _, ⟨rfl, rfl⟩, h⟩ := h
  split at h
  · rename_i made hmade
    obtain rfl := succeeds_set.1 h
    obtain ⟨l, hplace, hnone, rfl⟩ := makeDirectory_eq_ok.1 hmade
    have hextends := put_directory_extends hnone
    refine ⟨hextends, isDirectory_iff.2 ⟨l, place_mono hextends.keepsDirectories hplace, ?_⟩⟩
    rw [get?_put (ne_nil_of_none hnone), if_pos rfl]
  · simp only [succeeds_bind, succeeds_get] at h
    obtain ⟨_, _, ⟨rfl, rfl⟩, h⟩ := h
    split at h
    · rename_i hdirectory
      obtain ⟨_, rfl⟩ := succeeds_pure.1 h
      exact ⟨.refl _, hdirectory⟩
    · exact absurd h succeeds_throw

theorem makeDirectoriesFrom_spec {above : List String}
    (h : Succeeds (makeDirectoriesFrom p above) d u d') :
    d.Extends d' ∧ d'.isDirectory p = true := by
  induction above generalizing p d u d' with
  | nil => exact ensureDirectory_spec h
  | cons parent above ih =>
    simp only [makeDirectoriesFrom, succeeds_bind, succeeds_get] at h
    obtain ⟨_, _, ⟨rfl, rfl⟩, h⟩ := h
    split at h
    · obtain ⟨_, _, hparent, hp⟩ := succeeds_bind.1 h
      obtain ⟨hextends, _⟩ := ih hparent
      obtain ⟨hextends', hdirectory⟩ := ensureDirectory_spec hp
      exact ⟨hextends.trans hextends', hdirectory⟩
    · exact ensureDirectory_spec h

theorem makeDirectories_spec (h : Succeeds (makeDirectories p) d u d') :
    d.Extends d' ∧ d'.isDirectory p = true :=
  makeDirectoriesFrom_spec h

theorem makeDirectory_of_isDirectory (h : d.isDirectory p = true) :
    d.makeDirectory p = .error .alreadyExists := by
  obtain ⟨l, hplace, hl⟩ := isDirectory_iff.1 h
  simp [makeDirectory, hplace, hl, bind, Except.bind]

theorem ensureDirectory_of_isDirectory (h : d.isDirectory p = true) :
    Succeeds (ensureDirectory p) d () d := by
  simp only [ensureDirectory, succeeds_bind, succeeds_get]
  refine ⟨d, d, ⟨rfl, rfl⟩, ?_⟩
  rw [makeDirectory_of_isDirectory h]
  simp only [succeeds_bind, succeeds_get]
  refine ⟨d, d, ⟨rfl, rfl⟩, ?_⟩
  rw [if_pos h]
  exact succeeds_pure.2 ⟨rfl, rfl⟩

theorem makeDirectories_of_isDirectory (h : d.isDirectory p = true) :
    Succeeds (makeDirectories p) d () d := by
  unfold makeDirectories
  cases Path.ancestors p with
  | nil => exact ensureDirectory_of_isDirectory h
  | cons parent above =>
    simp only [makeDirectoriesFrom, succeeds_bind, succeeds_get]
    refine ⟨d, d, ⟨rfl, rfl⟩, ?_⟩
    rw [makeDirectory_of_isDirectory h]
    exact ensureDirectory_of_isDirectory h

/-! ## Fewer and other files -/

theorem KeepsDirectories.trans (h : d.KeepsDirectories d') (h' : d'.KeepsDirectories d'') :
    d.KeepsDirectories d'' :=
  fun l hl => h' l (h l hl)

theorem put_keepsDirectories {n : Node} (h : d.get? l ≠ some .directory) :
    d.KeepsDirectories (d.put l n) := by
  intro m hm
  rw [get?_put (ne_nil_of_not_directory h), if_neg (by rintro rfl; exact h hm)]
  exact hm

theorem erase_keepsDirectories (h : d.get? l ≠ some .directory) :
    d.KeepsDirectories (d.erase l) := by
  intro m hm
  rw [get?_erase (ne_nil_of_not_directory h), if_neg (by rintro rfl; exact h hm)]
  exact hm

theorem write_spec {c : ByteArray} (h : d.write p c = .ok d') :
    d.KeepsDirectories d' ∧
      ∀ l, d'.get? l = if l = location p then some (.file c) else d.get? l := by
  obtain ⟨l, hplace, hl, rfl⟩ := write_eq_ok.1 h
  obtain rfl := place_eq_location hplace
  exact ⟨put_keepsDirectories hl, fun m => get?_put (ne_nil_of_not_directory hl)⟩

/-- Moving a file: nothing stays at its old place, unless that is the new one. -/
theorem rename_spec {source target : String} {c : ByteArray}
    (hfile : d.get? (location source) = some (.file c)) (h : d.rename source target = .ok d') :
    d.KeepsDirectories d' ∧ d'.place target = .ok (location target) ∧
      ∀ l, d'.get? l =
        if l = location target then some (.file c)
        else if l = location source then none
        else d.get? l := by
  obtain ⟨l, n, m, hfind, hplace, hm, rfl⟩ := rename_eq_ok.1 h
  obtain ⟨hsource, hn, _⟩ := find_eq_ok.1 hfind
  obtain rfl := place_eq_location hsource
  obtain rfl := place_eq_location hplace
  obtain rfl := Option.some.inj (hn.symm.trans hfile)
  have hl : d.get? (location source) ≠ some .directory := by simp [hfile]
  have hmoved : (d.erase (location source)).get? (location target) ≠ some .directory := by
    rw [get?_erase (ne_nil_of_not_directory hl)]
    split
    · simp
    · exact hm
  have hkeep := (erase_keepsDirectories hl).trans (put_keepsDirectories (n := .file c) hmoved)
  refine ⟨hkeep, place_mono hkeep hplace, fun l => ?_⟩
  rw [get?_put (ne_nil_of_not_directory hm), get?_erase (ne_nil_of_not_directory hl)]

end Disk

/-! ## Writing -/

namespace Output

open Disk

variable {d d' : Disk} {path content : String} {u : Unit}

/-- The text goes to the temporary name first. Both its place and that of the file are not those of
directories, so no directory is lost. -/
theorem writeFile_spec (h : Succeeds (writeFile path content) d u d') :
    d.KeepsDirectories d' ∧ d'.place path = .ok (location path) ∧
      ∀ l, d'.file? l =
        if l = location path then some content.toUTF8
        else if l = location (temporaryPath path) then none
        else d.file? l := by
  have hsteps : ∃ d₁ d₂, d.Extends d₁ ∧ d₁.write (temporaryPath path) content.toUTF8 = .ok d₂ ∧
      d₂.rename (temporaryPath path) path = .ok d' := by
    unfold writeFile at h
    cases hparent : Path.parent? path with
    | none =>
      simp only [hparent, succeeds_bind, succeeds_attempt] at h
      obtain ⟨_, d₂, hwrite, hrename⟩ := h
      exact ⟨d, d₂, .refl d, hwrite, hrename⟩
    | some parent =>
      simp only [hparent, succeeds_bind, succeeds_adapt, succeeds_attempt] at h
      obtain ⟨_, d₁, hparents, _, d₂, hwrite, hrename⟩ := h
      exact ⟨d₁, d₂, (makeDirectories_spec hparents).1, hwrite, hrename⟩
  obtain ⟨d₁, d₂, hextends, hwrite, hrename⟩ := hsteps
  obtain ⟨hkeep₁, hget₁⟩ := write_spec hwrite
  have htemporary : d₂.get? (location (temporaryPath path)) = some (.file content.toUTF8) := by
    rw [hget₁, if_pos rfl]
  obtain ⟨hkeep₂, hplace, hget₂⟩ := rename_spec htemporary hrename
  refine ⟨hextends.keepsDirectories.trans (hkeep₁.trans hkeep₂), hplace, fun l => ?_⟩
  rw [← hextends.file?_eq l]
  unfold file?
  by_cases hpath : l = location path
  · rw [hget₂, if_pos hpath, if_pos hpath]
  · by_cases htemporary : l = location (temporaryPath path)
    · rw [hget₂, if_neg hpath, if_neg hpath, if_pos htemporary, if_pos htemporary]
    · rw [hget₂, hget₁, if_neg hpath, if_neg hpath, if_neg htemporary, if_neg htemporary,
        if_neg htemporary]

/-- A file can be written into a directory if no directory is at its place or under its temporary
name. -/
theorem exists_writeFile {directory name : String} (hname : IsName name)
    (hparent : Path.parent? (Path.join directory name) = some directory)
    (hdirectory : d.isDirectory directory = true)
    (husual : IsUsual (temporaryPath (Path.join directory name)) (name ++ ".tmp"))
    (hfile : d.get? (location directory ++ [name]) ≠ some .directory)
    (htemporary : d.get? (location directory ++ [name ++ ".tmp"]) ≠ some .directory) :
    ∃ d', Succeeds (writeFile (Path.join directory name) content) d () d' := by
  have hplace : ∀ d : Disk, d.isDirectory directory = true →
      d.place (Path.join directory name) = .ok (location directory ++ [name]) ∧
        d.place (temporaryPath (Path.join directory name)) =
          .ok (location directory ++ [name ++ ".tmp"]) := by
    intro d hd
    refine ⟨place_join hname hd husual.of_append, ?_⟩
    rw [temporaryPath, hname.join_append] at husual ⊢
    exact place_join hname.append_tmp hd husual
  have hlast : (temporaryPath (Path.join directory name)).toList.getLast? ≠ some '/' := by
    rw [temporaryPath, hname.join_append]
    exact hname.append_tmp.getLast?_join directory
  obtain ⟨d₁, hwrite⟩ : ∃ d₁,
      d.write (temporaryPath (Path.join directory name)) content.toUTF8 = .ok d₁ :=
    ⟨_, write_eq_ok.2 ⟨_, (hplace d hdirectory).2, htemporary, rfl⟩⟩
  obtain ⟨hkeep, hget⟩ := write_spec hwrite
  rw [← place_eq_location (hplace d hdirectory).2] at hget
  obtain ⟨htarget, hsource⟩ := hplace d₁ (hkeep.isDirectory hdirectory)
  have hfile₁ : d₁.get? (location directory ++ [name]) ≠ some .directory := by
    rw [hget, if_neg (by simp [String.ext_iff])]
    exact hfile
  have hfind : d₁.find (temporaryPath (Path.join directory name)) =
      .ok (location directory ++ [name ++ ".tmp"], .file content.toUTF8) :=
    find_eq_ok.2 ⟨hsource, (hget _).trans (if_pos rfl), fun he => absurd he hlast⟩
  simp only [writeFile, hparent, succeeds_bind, succeeds_adapt, succeeds_attempt]
  exact ⟨_, (), d, makeDirectories_of_isDirectory hdirectory, (), d₁, hwrite,
    rename_eq_ok.2 ⟨_, _, _, hfind, htarget, hfile₁, rfl⟩⟩

/-! ## Removing -/

theorem removeFiles_spec {directory : String} {names : List String} (hnames : ∀ n ∈ names, IsName n)
    (h : Succeeds (removeFiles directory names) d u d') :
    d.KeepsDirectories d' ∧
      ∀ l, d'.get? l = if ∃ n ∈ names, l = location directory ++ [n] then none else d.get? l := by
  induction names generalizing d u with
  | nil =>
    obtain ⟨_, rfl⟩ := succeeds_pure.1 h
    exact ⟨fun _ hl => hl, by simp⟩
  | cons n names ih =>
    simp only [removeFiles, succeeds_bind, succeeds_attempt] at h
    obtain ⟨_, d₁, hremove, hrest⟩ := h
    obtain ⟨l, c, hfind, rfl⟩ := remove_eq_ok.1 hremove
    obtain ⟨hplace, hfile, _⟩ := find_eq_ok.1 hfind
    obtain rfl := place_eq_location hplace
    have hl : d.get? (location (Path.join directory n)) ≠ some .directory := by simp [hfile]
    obtain ⟨hkeep, hget⟩ := ih (fun m hm => hnames m (.tail _ hm)) hrest
    refine ⟨(erase_keepsDirectories hl).trans hkeep, fun m => ?_⟩
    rw [hget, get?_erase (ne_nil_of_not_directory hl), (hnames n (.head _)).location_join]
    simp only [List.exists_mem_cons_iff]
    by_cases hm : m = location directory ++ [n]
    · simp [hm]
    · simp [hm]

end Output

end ApiClient
