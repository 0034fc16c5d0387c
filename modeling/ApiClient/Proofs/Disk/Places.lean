import ApiClient.Output.FilePath
import ApiClient.Proofs.Disk.Entries
import Mathlib.Data.List.Induction

/-!
# Locations of paths

The location that a path leads to can be told from its names alone. A disk decides only whether the
path leads there: all names but the last one must be those of directories.

Results:
* `place_eq_location`: where a path leads on any disk.
* `place_mono`: a path leads to its place as long as directories are kept.
* `location_join`, `location_diskPath`: the location of a name inside a directory and of a generated
  file.
* `WellFormed.of_entries`: whether entries have names and lie in directories.
* `WellFormed.reaches`: on a disk whose entries lie in directories all that is above them is one.
* `place_join`: a name inside a directory leads to the entry of this name.
* `place_of_reaches`: where this is so, a path leads to its place.
-/

namespace ApiClient

namespace Disk

variable {d d' : Disk} {l here : Location} {p : String}

/-! ## Locations -/

/-- Where a name leads to from a directory, whatever the disk holds. -/
def enter (here : Location) (name : String) : Location :=
  if name = "." then here
  else if name = ".." then here.dropLast
  else here ++ [name]

/-- Where a path leads to from the root, whatever the disk holds. -/
def location (p : String) : Location :=
  (names p).foldl enter []

/-- Directories of the first disk are directories of the second one. -/
def KeepsDirectories (d d' : Disk) : Prop :=
  ∀ l, d.get? l = some .directory → d'.get? l = some .directory

theorem step_eq_enter {name : String} (h : step here name = .ok l) : l = enter here name := by
  unfold step at h
  unfold enter
  by_cases hhere : name = "."
  · rw [if_pos hhere] at h ⊢
    exact (Except.ok.inj h).symm
  · rw [if_neg hhere] at h ⊢
    by_cases hparent : name = ".."
    · rw [if_pos hparent] at h ⊢
      exact (Except.ok.inj h).symm
    · rw [if_neg hparent] at h ⊢
      split at h
      · simp at h
      · exact (Except.ok.inj h).symm

theorem walk_cons {name : String} {ns : List String} : d.walk here (name :: ns) = .ok l ↔
    ∃ next, step here name = .ok next ∧ d.get? next = some .directory ∧ d.walk next ns = .ok l := by
  rw [walk, bind_eq_ok]
  refine exists_congr fun next => and_congr_right fun _ => ?_
  rcases d.get? next with _ | _ | _ <;> simp

theorem walk_eq_foldl {ns : List String} (h : d.walk here ns = .ok l) :
    l = ns.foldl enter here := by
  induction ns generalizing here with
  | nil => exact (Except.ok.inj h).symm
  | cons name ns ih =>
    obtain ⟨next, hnext, _, hrest⟩ := walk_cons.1 h
    rw [List.foldl_cons, ← step_eq_enter hnext]
    exact ih hrest

theorem walk_mono (hkeep : d.KeepsDirectories d') {ns : List String} (h : d.walk here ns = .ok l) :
    d'.walk here ns = .ok l := by
  induction ns generalizing here with
  | nil => exact h
  | cons name ns ih =>
    obtain ⟨next, hnext, hdirectory, hrest⟩ := walk_cons.1 h
    exact walk_cons.2 ⟨next, hnext, hkeep next hdirectory, ih hrest⟩

theorem place_eq_location (h : d.place p = .ok l) : l = location p := by
  unfold place at h
  split at h
  · simp at h
  · split at h
    · simp at h
    · unfold location
      split at h
      · rename_i hnone
        rw [List.getLast?_eq_none_iff.1 hnone]
        exact (Except.ok.inj h).symm
      · rename_i name hname
        obtain ⟨here, hwalk, hstep⟩ := bind_eq_ok.1 h
        rw [← List.dropLast_append_getLast? _ hname, List.foldl_append, ← walk_eq_foldl hwalk]
        exact step_eq_enter hstep

/-- A disk with more directories has more places. -/
theorem place_mono (hkeep : d.KeepsDirectories d') (h : d.place p = .ok l) :
    d'.place p = .ok l := by
  unfold place at h ⊢
  split at h
  · simp at h
  · rename_i hnul
    split at h
    · simp at h
    · rename_i hlong
      rw [if_neg hnul, if_neg hlong]
      split at h
      · exact h
      · obtain ⟨here, hwalk, hstep⟩ := bind_eq_ok.1 h
        exact bind_eq_ok.2 ⟨here, walk_mono hkeep hwalk, hstep⟩

theorem remove_of_read {c : ByteArray} (h : d.read p = .ok c) :
    d.remove p = .ok (d.erase (location p)) := by
  obtain ⟨l, hplace, hfile, hlast⟩ := read_eq_ok.1 h
  obtain rfl := place_eq_location hplace
  refine remove_eq_ok.2 ⟨_, c, find_eq_ok.2 ⟨hplace, file?_eq_some_iff.1 hfile, ?_⟩, rfl⟩
  exact fun hslash => absurd hslash hlast

end Disk

/-! ## Names -/

/-- A relative path adds its names to those of the directory. -/
theorem Disk.names_join_of_relative {directory p : String} (h : Path.isAbsolute p = false) :
    names (Path.join directory p) = names directory ++ names p := by
  rw [Path.join, if_neg (by simp [h])]
  split
  · rename_i hends
    rcases Bool.or_eq_true_iff.1 hends with hempty | hslash
    · rw [String.isEmpty_iff.1 hempty, String.empty_append]
      rfl
    · obtain ⟨cs, hcs⟩ := List.getLast?_eq_some_iff.1 (eq_of_beq hslash)
      rw [names, names, names, String.toList_append, hcs, List.append_assoc,
        List.singleton_append, Text.splitOn_append_cons, Text.splitOn_append_cons]
      simp [Text.splitOn]
  · rw [names, names, names, String.append_assoc, String.toList_append, String.toList_append,
      show "/".toList ++ p.toList = '/' :: p.toList from rfl, Text.splitOn_append_cons,
      List.filter_append, List.map_append]

/-- A name that an entry of a directory can have. -/
structure IsName (name : String) : Prop where
  ne_empty : name ≠ ""
  ne_here : name ≠ "."
  ne_parent : name ≠ ".."
  no_slash : '/' ∉ name.toList

instance {name : String} : Decidable (IsName name) :=
  decidable_of_iff (name ≠ "" ∧ name ≠ "." ∧ name ≠ ".." ∧ '/' ∉ name.toList)
    ⟨fun ⟨h₁, h₂, h₃, h₄⟩ => ⟨h₁, h₂, h₃, h₄⟩, fun ⟨h₁, h₂, h₃, h₄⟩ => ⟨h₁, h₂, h₃, h₄⟩⟩

namespace IsName

variable {name : String} (h : IsName name)
include h

theorem toList_ne_nil : name.toList ≠ [] := by
  simpa using h.ne_empty

theorem not_isAbsolute (suffix : String) : Path.isAbsolute (name ++ suffix) = false := by
  obtain ⟨c, cs, hcs⟩ := List.exists_cons_of_ne_nil h.toList_ne_nil
  have hc : c ≠ '/' := by
    rintro rfl
    exact h.no_slash (by rw [hcs]; exact .head _)
  simp [Path.isAbsolute, hcs, hc]

theorem isAbsolute : Path.isAbsolute name = false := by
  simpa using h.not_isAbsolute ""

theorem append_tmp : IsName (name ++ ".tmp") := by
  have hlength : 4 < (name ++ ".tmp").toList.length := by
    have := List.length_pos_iff.2 h.toList_ne_nil
    simp
    omega
  refine ⟨?_, ?_, ?_, ?_⟩
  · intro he
    simp [he] at hlength
  · intro he
    simp [he] at hlength
  · intro he
    simp [he] at hlength
  · simpa using h.no_slash

theorem enter (here : Location) : Disk.enter here name = here ++ [name] := by
  rw [Disk.enter, if_neg h.ne_here, if_neg h.ne_parent]

theorem names : Disk.names name = [name] := by
  rw [Disk.names, Text.splitOn_of_not_mem h.no_slash]
  simp [h.ne_empty]

/-- A name adds a segment to a path. -/
theorem names_join (directory : String) :
    Disk.names (Path.join directory name) = Disk.names directory ++ [name] := by
  rw [Disk.names_join_of_relative h.isAbsolute, h.names]

theorem join_append (directory suffix : String) :
    Path.join directory name ++ suffix = Path.join directory (name ++ suffix) := by
  rw [Path.join, Path.join, h.isAbsolute, h.not_isAbsolute suffix, if_neg Bool.false_ne_true,
    if_neg Bool.false_ne_true]
  split <;> simp only [String.append_assoc]

theorem getLast?_join_eq (directory : String) :
    (Path.join directory name).toList.getLast? = name.toList.getLast? := by
  have happend : ∃ cs, (Path.join directory name).toList = cs ++ name.toList := by
    rw [Path.join, h.isAbsolute, if_neg Bool.false_ne_true]
    split
    · exact ⟨directory.toList, String.toList_append⟩
    · exact ⟨(directory ++ "/").toList, String.toList_append⟩
  obtain ⟨cs, hcs⟩ := happend
  rw [hcs, List.getLast?_append_of_ne_nil _ h.toList_ne_nil]

theorem getLast?_join (directory : String) :
    (Path.join directory name).toList.getLast? ≠ some '/' := by
  rw [h.getLast?_join_eq]
  exact fun hslash => h.no_slash (List.mem_of_getLast? hslash)

theorem location_join (directory : String) :
    Disk.location (Path.join directory name) = Disk.location directory ++ [name] := by
  rw [Disk.location, Disk.location, h.names_join, List.foldl_append, List.foldl_cons,
    List.foldl_nil, h.enter]

end IsName

namespace Disk

variable {ns : List String}

theorem foldl_enter (h : ∀ n ∈ ns, IsName n) (here : Location) :
    ns.foldl enter here = here ++ ns := by
  induction ns generalizing here with
  | nil => simp
  | cons n ns ih =>
    rw [List.foldl_cons, ih (fun m hm => h m (.tail _ hm)), (h n (.head _)).enter,
      List.append_assoc, List.singleton_append]

theorem names_foldl_join (h : ∀ n ∈ ns, IsName n) {directory : String} :
    names (ns.foldl Path.join directory) = names directory ++ ns := by
  induction ns generalizing directory with
  | nil => simp
  | cons n ns ih =>
    rw [List.foldl_cons, ih (fun m hm => h m (.tail _ hm)), (h n (.head _)).names_join,
      List.append_assoc, List.singleton_append]

theorem location_foldl_join (h : ∀ n ∈ ns, IsName n) {directory : String} :
    location (ns.foldl Path.join directory) = location directory ++ ns := by
  rw [location, names_foldl_join h, List.foldl_append, foldl_enter h]
  rfl

/-! ## Paths through directories -/

/-- All that is above a location is a directory. -/
def Reaches (d : Disk) (l : Location) : Prop :=
  ∀ k < l.length, d.get? (l.take k) = some .directory

/-- A disk as systems have them: entries have names and lie in directories. -/
structure WellFormed (d : Disk) : Prop where
  isName : ∀ l name, d.get? (l ++ [name]) ≠ none → IsName name
  parent : ∀ l name, d.get? (l ++ [name]) ≠ none → d.get? l = some .directory

/-- It is enough to look at the entries. -/
theorem WellFormed.of_entries {d : Disk} (h : ∀ e ∈ d.entries,
    ∃ l name, e.1 = l ++ [name] ∧ IsName name ∧ d.get? l = some .directory) : d.WellFormed := by
  have hentry : ∀ l name, d.get? (l ++ [name]) ≠ none →
      IsName name ∧ d.get? l = some .directory := by
    intro l name hne
    obtain ⟨n, hn⟩ := Option.ne_none_iff_exists'.1 hne
    obtain ⟨l', name', he, hname, hl⟩ := h _ ((get?_eq_some_iff (by simp)).1 hn)
    obtain ⟨rfl, hlast⟩ := List.append_inj' he rfl
    obtain rfl := List.singleton_inj.1 hlast
    exact ⟨hname, hl⟩
  exact ⟨fun l name hne => (hentry l name hne).1, fun l name hne => (hentry l name hne).2⟩

theorem WellFormed.reaches {d : Disk} (h : d.WellFormed) {l : Location} (hl : d.get? l ≠ none) :
    d.Reaches l := by
  induction l using List.reverseRecOn with
  | nil => exact fun k hk => absurd hk (Nat.not_lt_zero k)
  | append_singleton l name ih =>
    have hparent := h.parent l name hl
    intro k hk
    have hle : k ≤ l.length := by
      simp only [List.length_append, List.length_singleton] at hk
      omega
    rw [List.take_append_of_le_length hle]
    rcases Nat.eq_or_lt_of_le hle with rfl | hlt
    · rw [List.take_length, hparent]
    · exact ih (by simp [hparent]) k hlt

theorem Reaches.mono {d d' : Disk} (h : d.KeepsDirectories d') {l : Location} (hl : d.Reaches l) :
    d'.Reaches l :=
  fun k hk => h _ (hl k hk)

theorem walk_append {d : Disk} {here l : Location} {ms : List String} :
    d.walk here (ns ++ ms) = .ok l ↔
      ∃ next, d.walk here ns = .ok next ∧ d.walk next ms = .ok l := by
  induction ns generalizing here with
  | nil => simp [walk]
  | cons n ns ih =>
    simp only [List.cons_append, walk_cons, ih]
    constructor
    · rintro ⟨m, hstep, hm, next, hnext, hrest⟩
      exact ⟨next, ⟨m, hstep, hm, hnext⟩, hrest⟩
    · rintro ⟨next, ⟨m, hstep, hm, hnext⟩, hrest⟩
      exact ⟨m, hstep, hm, next, hnext, hrest⟩

/-- A path with a last name leads to that name inside the directory of the other ones. -/
theorem place_eq_ok {d : Disk} {p : String} {n : String} {l : Location} (h : names p = ns ++ [n]) :
    d.place p = .ok l ↔
      p.contains '\x00' = false ∧ p.utf8ByteSize < maxPath ∧
        ∃ here, d.walk [] ns = .ok here ∧ step here n = .ok l := by
  rw [place, h, List.getLast?_concat, List.dropLast_concat]
  by_cases hnul : p.contains '\x00' = true
  · simp [hnul]
  · rw [if_neg hnul, eq_false_of_ne_true hnul]
    by_cases hlong : maxPath ≤ p.utf8ByteSize
    · simp [hlong, Nat.not_lt.2 hlong]
    · simp [hlong, Nat.not_le.1 hlong, bind_eq_ok]

theorem walk_names {d : Disk} {p : String} (h : d.isDirectory p = true) :
    d.walk [] (names p) = .ok (location p) := by
  obtain ⟨l, hplace, hl⟩ := isDirectory_iff.1 h
  obtain rfl := place_eq_location hplace
  rcases List.eq_nil_or_concat' (names p) with hnil | ⟨ns, n, hnames⟩
  · rw [location, hnil]
    rfl
  · obtain ⟨_, _, here, hwalk, hstep⟩ := (place_eq_ok hnames).1 hplace
    rw [hnames]
    exact walk_append.2 ⟨here, hwalk, walk_cons.2 ⟨_, hstep, hl, rfl⟩⟩

theorem isDirectory_root (d : Disk) : d.isDirectory "/" = true := by
  refine isDirectory_iff.2 ⟨[], ?_, rfl⟩
  rw [place, show names "/" = [] by decide +kernel]
  simp [maxPath, show "/".utf8ByteSize = 1 by decide +kernel]

/-- A path is short enough and without a character that systems refuse. -/
def IsUsual (p name : String) : Prop :=
  '\x00' ∉ p.toList ∧ p.utf8ByteSize < maxPath ∧ name.utf8ByteSize ≤ maxName

instance {p name : String} : Decidable (IsUsual p name) :=
  inferInstanceAs (Decidable (_ ∧ _))

/-- A path is usual if it is so with an ending. -/
theorem IsUsual.of_append {p name suffix : String} (h : IsUsual (p ++ suffix) (name ++ suffix)) :
    IsUsual p name := by
  obtain ⟨hnul, hpath, hshort⟩ := h
  rw [String.toList_append, List.mem_append, not_or] at hnul
  rw [String.utf8ByteSize_append] at hpath hshort
  exact ⟨hnul.1, by omega, by omega⟩

/-- A name inside a directory leads to the entry of this name. -/
theorem place_join {d : Disk} {directory name : String} (hname : IsName name)
    (hd : d.isDirectory directory = true) (h : IsUsual (Path.join directory name) name) :
    d.place (Path.join directory name) = .ok (location directory ++ [name]) := by
  obtain ⟨hnul, hpath, hshort⟩ := h
  refine (place_eq_ok (hname.names_join directory)).2
    ⟨by simpa using hnul, hpath, _, walk_names hd, ?_⟩
  rw [step, if_neg hname.ne_here, if_neg hname.ne_parent, if_neg (Nat.not_lt.2 hshort)]

/-- Names that can be walked on one disk can be walked on another one that has the directories. -/
theorem walk_of_reaches {d d' : Disk} {here l : Location} (h : ∀ n ∈ ns, IsName n)
    (hreaches : ∀ k ≤ ns.length, d.get? (here ++ ns.take k) = some .directory)
    (hwalk : d'.walk here ns = .ok l) : d.walk here ns = .ok l := by
  induction ns generalizing here with
  | nil => exact hwalk
  | cons n ns ih =>
    obtain ⟨next, hstep, _, hrest⟩ := walk_cons.1 hwalk
    have hnext : next = here ++ [n] := (step_eq_enter hstep).trans ((h n (.head _)).enter here)
    subst hnext
    refine walk_cons.2 ⟨_, hstep, ?_, ih (fun m hm => h m (.tail _ hm)) (fun k hk => ?_) hrest⟩
    · simpa using hreaches 1 (by simp)
    · simpa using hreaches (k + 1) (by simpa using hk)

end Disk

/-! ## Generated files -/

namespace FilePath

theorem isName_of_mem_segments {f : FilePath} {name : String} (h : name ∈ f.segments) :
    IsName name := by
  obtain ⟨cs, hcs, rfl⟩ := List.mem_map.1 h
  obtain ⟨hmem, hidle⟩ := List.mem_filter.1 hcs
  have hparent := List.all_eq_true.1 f.noParent cs hmem
  have hslash := Text.not_mem_of_mem_splitOn hmem
  have hne : ∀ cs', cs ≠ cs' → String.ofList cs ≠ String.ofList cs' :=
    fun cs' hcs' he => hcs' (String.ofList_injective he)
  rw [Bool.not_eq_true', Path.isIdle, Bool.or_eq_false_iff] at hidle
  refine ⟨hne [] ?_, hne ['.'] ?_, hne ['.', '.'] ?_, ?_⟩
  · simpa using hidle.1
  · simpa using hidle.2
  · simpa using hparent
  · rwa [String.toList_ofList]

theorem names_diskPath (directory : String) (f : FilePath) :
    Disk.names (f.diskPath directory) = Disk.names directory ++ f.segments :=
  Disk.names_foldl_join fun _ => isName_of_mem_segments

theorem location_diskPath (directory : String) (f : FilePath) :
    Disk.location (f.diskPath directory) = Disk.location directory ++ f.segments :=
  Disk.location_foldl_join fun _ => isName_of_mem_segments

/-- A path that leads somewhere on one disk leads there on every disk that has the directories. -/
theorem place_of_reaches {d d' : Disk} {directory : String} {f : FilePath} {l : Location}
    (hdirectory : d.isDirectory directory = true) (hdirectory' : d'.isDirectory directory = true)
    (hreaches : d.Reaches (Disk.location directory ++ f.segments))
    (h : d'.place (f.diskPath directory) = .ok l) : d.place (f.diskPath directory) = .ok l := by
  rcases List.eq_nil_or_concat' f.segments with hnil | ⟨ns, n, hsegments⟩
  · have hpath : f.diskPath directory = directory := by rw [diskPath, hnil, List.foldl_nil]
    rw [hpath] at h ⊢
    obtain ⟨m, hplace, _⟩ := Disk.isDirectory_iff.1 hdirectory
    rw [hplace, Disk.place_eq_location hplace, Disk.place_eq_location h]
  · have hnames : Disk.names (f.diskPath directory) = (Disk.names directory ++ ns) ++ [n] := by
      rw [names_diskPath, hsegments, List.append_assoc]
    have hns : ∀ m ∈ ns, IsName m := fun m hm =>
      isName_of_mem_segments (f := f) (by simp [hsegments, hm])
    obtain ⟨hnul, hshort, here, hwalk, hstep⟩ := (Disk.place_eq_ok hnames).1 h
    obtain ⟨next, hnext, hrest⟩ := Disk.walk_append.1 hwalk
    obtain rfl := Except.ok.inj ((Disk.walk_names hdirectory').symm.trans hnext)
    refine (Disk.place_eq_ok hnames).2 ⟨hnul, hshort, here, ?_, hstep⟩
    refine Disk.walk_append.2 ⟨_, Disk.walk_names hdirectory, ?_⟩
    refine Disk.walk_of_reaches hns (fun k hk => ?_) hrest
    have hlength : (Disk.location directory).length + k <
        (Disk.location directory ++ f.segments).length := by
      rw [hsegments]
      simp
      omega
    have hget := hreaches _ hlength
    rwa [List.take_length_add_append, hsegments, List.take_append_of_le_length hk] at hget

end FilePath

end ApiClient
