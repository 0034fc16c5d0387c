import ApiClient.Proofs.GeneratedFiles
import Mathlib.Data.Set.Function
import Mathlib.Tactic.TFAE

/-!
# Paths and their places

A path of a generated file is told from others by its text, and its place by the names on the way
there. Where a path is resolved all names that say nothing are dropped, but where it is read only
the leading ones of one dot are. So one place has many paths: `meta//Schema.json` leads where
`meta/Schema.json` does, and a tree holds a file for each of the two.

Results:
* `components_diskPath`: the steps of a resolved path are those of the directory, then its names.
* `samePlace_tfae`: two paths lead to one place exactly if they have the same names.
* `segments_eq_nil_iff`: of all paths that are read only `.` leads to the directory itself.
* `existsUnique_isTidy`: every other place has one path all of whose names say something.
* `holdsOnePerPlace_addAll_iff`: which files a tree keeps apart as the disk does.
* `isCanonical_iff`: among which paths the place tells the path; the tidy ones are such.
* `not_isCanonical_schema`: among all paths that are read it does not.
-/

namespace ApiClient

open Disk

/-! ## Specification -/

/-- Two paths are the same: they take the same steps. -/
def Path.Same (p q : String) : Prop :=
  components p = components q

/-- A tree has no two files for one location on disk, wherever it is written to. -/
def Tree.HoldsOnePerPlace (t : Tree) : Prop :=
  ∀ directory, (t.entries.map fun e => location (e.1.diskPath directory)).Nodup

namespace FilePath

/-- Among the paths of a kind, places tell the paths. -/
structure IsCanonical (P : FilePath → Prop) : Prop where
  /-- Paths that lead to the same place are equal. -/
  eq_of_same : ∀ f g directory, P f → P g →
    Path.Same (f.diskPath directory) (g.diskPath directory) → f = g
  /-- None of them leads to the directory itself. -/
  not_same_directory : ∀ f directory, P f → ¬ Path.Same (f.diskPath directory) directory
  /-- A tree of such paths has one file for each location. -/
  holdsOnePerPlace : ∀ t : Tree, (∀ e ∈ t.entries, P e.1) → t.HoldsOnePerPlace

/-- A path that was read from a text. -/
def IsRead (f : FilePath) : Prop :=
  ∃ path, parse path = .ok f

/-- All names of the path say something. -/
def IsTidy (f : FilePath) : Prop :=
  ∀ s ∈ Text.splitOn '/' f.text.toList, Path.isIdle s = false

end FilePath

/-! ## Steps of resolved paths -/

namespace Path

theorem components_congr {p q : String} {new : List Component}
    (habsolute : isAbsolute p = isAbsolute q)
    (hhead : (Text.splitOn '/' p.toList).head? = (Text.splitOn '/' q.toList).head?)
    (hsteps : (Text.splitOn '/' p.toList).filterMap Component.ofName? =
      (Text.splitOn '/' q.toList).filterMap Component.ofName? ++ new) :
    components p = components q ++ new := by
  unfold components
  dsimp only
  rw [habsolute, hhead, hsteps]
  split
  · rfl
  · split <;> rfl

end Path

namespace IsName

variable {name : String} (h : IsName name)
include h

theorem ofName? : Path.Component.ofName? name.toList = some (.name name) := by
  have hne : ∀ cs, name ≠ String.ofList cs → name.toList ≠ cs := by
    rintro cs hname rfl
    exact hname String.ofList_toList.symm
  rw [Path.Component.ofName?, if_neg, if_neg (hne _ h.ne_parent), String.ofList_toList]
  rintro (hempty | hhere)
  · exact hne _ h.ne_empty hempty
  · exact hne _ h.ne_here hhere

/-- After a slash a name is one more step, whether the slash is there already or not. -/
theorem components_of_toList {p q : String} {cs : List Char}
    (hp : p.toList = cs ++ '/' :: name.toList)
    (hq : q.toList = cs ∧ cs ≠ [] ∨ q.toList = cs ++ ['/']) :
    Path.components p = Path.components q ++ [.name name] := by
  obtain ⟨s, ss, hs⟩ := List.exists_cons_of_ne_nil (Text.splitOn_ne_nil '/' cs)
  have hlast : Text.splitOn '/' name.toList = [name.toList] := Text.splitOn_of_not_mem h.no_slash
  rcases hq with ⟨hq, hne⟩ | hq
  · obtain ⟨c, cs, rfl⟩ := List.exists_cons_of_ne_nil hne
    apply Path.components_congr
    · rw [Path.isAbsolute, Path.isAbsolute, hp, hq]
      rfl
    · rw [hp, hq, Text.splitOn_append_cons, hs]
      rfl
    · rw [hp, hq, Text.splitOn_append_cons, List.filterMap_append, hlast]
      simp [h.ofName?]
  · apply Path.components_congr
    · rw [Path.isAbsolute, Path.isAbsolute, hp, hq]
      cases cs <;> rfl
    · rw [hp, hq, Text.splitOn_append_cons, Text.splitOn_append_cons, hs]
      rfl
    · rw [hp, hq, Text.splitOn_append_cons, Text.splitOn_append_cons, List.filterMap_append,
        List.filterMap_append, hlast, List.filterMap_cons_some h.ofName?]
      simp [Text.splitOn, Path.Component.ofName?]

theorem components_join (directory : String) :
    Path.components (Path.join directory name) = Path.components directory ++ [.name name] := by
  rw [Path.join, if_neg (by simp [h.isAbsolute])]
  by_cases hempty : directory = ""
  · subst hempty
    have hlast : Text.splitOn '/' name.toList = [name.toList] := Text.splitOn_of_not_mem h.no_slash
    have hhere : name.toList ≠ ['.'] := by
      intro he
      exact h.ne_here (String.toList_injective he)
    simp [Path.components, h.isAbsolute, hlast, h.ofName?, hhere]
    decide
  · by_cases hslash : directory.toList.getLast? = some '/'
    · obtain ⟨cs, hcs⟩ := List.getLast?_eq_some_iff.1 hslash
      rw [if_pos (by simp [hslash])]
      exact h.components_of_toList (by simp [hcs]) (.inr hcs)
    · rw [if_neg (by simp [hempty, hslash])]
      have hne : directory.toList ≠ [] := by simpa using hempty
      exact h.components_of_toList (by simp) (.inl ⟨rfl, hne⟩)

end IsName

namespace FilePath

theorem components_foldl_join {ns : List String} (h : ∀ n ∈ ns, IsName n) (directory : String) :
    Path.components (ns.foldl Path.join directory) =
      Path.components directory ++ ns.map .name := by
  induction ns generalizing directory with
  | nil => simp
  | cons n ns ih =>
    rw [List.foldl_cons, ih (fun m hm => h m (.tail _ hm)), (h n (.head _)).components_join,
      List.append_assoc]
    rfl

/-- A resolved path takes the steps of the directory, then those of its names. -/
theorem components_diskPath (directory : String) (f : FilePath) :
    Path.components (f.diskPath directory) = Path.components directory ++ f.segments.map .name :=
  components_foldl_join (fun _ => isName_of_mem_segments) directory

/-- Two paths lead to the same place exactly if they have the same names, whether places are
compared as texts, by their steps or by their locations on disk. -/
theorem samePlace_tfae (f g : FilePath) (directory : String) :
    [f.segments = g.segments, f.diskPath directory = g.diskPath directory,
      Path.Same (f.diskPath directory) (g.diskPath directory),
      location (f.diskPath directory) = location (g.diskPath directory)].TFAE := by
  tfae_have 1 → 2 := by
    intro h
    rw [diskPath, diskPath, h]
  tfae_have 2 → 3 := by
    intro h
    rw [Path.Same, h]
  tfae_have 3 → 1 := by
    intro h
    rw [Path.Same, components_diskPath, components_diskPath, List.append_cancel_left_eq] at h
    exact List.map_injective_iff.2 (fun _ _ => Path.Component.name.inj) h
  tfae_have 2 → 4 := congrArg location
  tfae_have 4 → 1 := by
    intro h
    rwa [location_diskPath, location_diskPath, List.append_cancel_left_eq] at h
  tfae_finish

theorem same_directory_iff {f : FilePath} {directory : String} :
    Path.Same (f.diskPath directory) directory ↔ f.segments = [] := by
  rw [Path.Same, components_diskPath]
  simp

/-! ## Tidy paths -/

theorem segments_eq_map_steps (f : FilePath) :
    f.segments = (Path.steps f.text.toList).map String.ofList :=
  rfl

theorem steps_eq_of_segments_eq {f g : FilePath} (h : f.segments = g.segments) :
    Path.steps f.text.toList = Path.steps g.text.toList :=
  List.map_injective_iff.2 (fun _ _ he => String.ofList_injective he) h

/-- The text of a path is not empty and does not start with a slash. -/
theorem head?_text (f : FilePath) : f.text.toList ≠ [] ∧ f.text.toList.head? ≠ some '/' := by
  have h := f.relative
  simp only [isRelativeText, Bool.and_eq_true] at h
  exact ⟨by simpa using h.1.1.1.1, by simpa using h.1.1.1.2⟩

/-- Of all paths that are read only the one of a single dot leads to the directory itself. -/
theorem segments_eq_nil_iff {f : FilePath} : f.segments = [] ↔ f.text = "." := by
  constructor
  · intro h
    obtain ⟨hne, hhead⟩ := f.head?_text
    have hidle : ∀ s ∈ Text.splitOn '/' f.text.toList, Path.isIdle s = true := by
      simpa [segments] using h
    have hjoin := Text.joinWith_splitOn '/' f.text.toList
    obtain ⟨s, ss, hs⟩ := List.exists_cons_of_ne_nil (Text.splitOn_ne_nil '/' f.text.toList)
    rw [hs] at hidle hjoin
    -- The first name is a dot, as the text does not start with a slash, and the only one, as it
    -- does not start with a step that stays where it is.
    rcases Bool.or_eq_true_iff.1 (hidle s (.head _)) with hs | hs
    · rw [List.isEmpty_iff.1 hs] at hjoin
      cases ss with
      | nil => exact absurd hjoin.symm hne
      | cons t ts => exact absurd (by rw [← hjoin]; rfl) hhead
    · rw [eq_of_beq hs] at hjoin
      cases ss with
      | nil => exact String.toList_injective hjoin.symm
      | cons t ts =>
        have hstays : Path.dropHere ('.' :: '/' :: Text.joinWith ['/'] (t :: ts)) =
            '.' :: '/' :: Text.joinWith ['/'] (t :: ts) := by
          have := f.dropHere_text
          rwa [← hjoin] at this
        have hlength := (Path.dropHere_suffix (Text.joinWith ['/'] (t :: ts))).length_le
        have hsame := congrArg List.length hstays
        rw [Path.dropHere, List.length_cons, List.length_cons] at hsame
        omega
  · intro h
    rw [segments, h]
    rfl

theorem IsTidy.splitOn_eq {f : FilePath} (h : f.IsTidy) :
    Text.splitOn '/' f.text.toList = Path.steps f.text.toList :=
  (List.filter_eq_self.2 fun s hs => by rw [h s hs]; rfl).symm

/-- A tidy path is that of its names. -/
theorem IsTidy.eq_of_segments_eq {f g : FilePath} (hf : f.IsTidy) (hg : g.IsTidy)
    (h : f.segments = g.segments) : f = g := by
  have hsplit : Text.splitOn '/' f.text.toList = Text.splitOn '/' g.text.toList := by
    rw [hf.splitOn_eq, hg.splitOn_eq, steps_eq_of_segments_eq h]
  have htext : f.text = g.text := by
    apply String.toList_injective
    rw [← Text.joinWith_splitOn '/' f.text.toList, hsplit, Text.joinWith_splitOn]
  rcases f with ⟨text, _, _⟩
  rcases g with ⟨text', _, _⟩
  cases htext
  rfl

theorem mem_joinWith {sep c : Char} {ss : List (List Char)} (h : c ∈ Text.joinWith [sep] ss) :
    c = sep ∨ ∃ s ∈ ss, c ∈ s := by
  fun_induction Text.joinWith [sep] ss with
  | case1 => cases h
  | case2 s => exact .inr ⟨s, .head _, h⟩
  | case3 s ss _ ih =>
    rcases List.mem_append.1 h with h | h
    · rcases List.mem_append.1 h with h | h
      · exact .inr ⟨s, .head _, h⟩
      · exact .inl (List.mem_singleton.1 h)
    · exact (ih h).imp_right fun ⟨t, ht, hc⟩ => ⟨t, .tail _ ht, hc⟩

/-- A text all of whose names say something is relative, but for the letters that are refused. -/
theorem isRelativeText_of_names {cs : List Char}
    (h : ∀ s ∈ Text.splitOn '/' cs, Path.isIdle s = false) (hcolon : ':' ∉ cs) (hback : '\\' ∉ cs) :
    isRelativeText cs = true := by
  have hne : cs ≠ [] := by
    rintro rfl
    exact absurd (h [] (.head _)) (by decide)
  have hhead : cs.head? ≠ some '/' := by
    intro hslash
    obtain ⟨rest, rfl⟩ := List.head?_eq_some_iff.1 hslash
    exact absurd (h [] (by simp [Text.splitOn])) (by decide)
  have hstays : Path.dropHere cs = cs := by
    fun_cases Path.dropHere cs with
    | case1 rest => exact absurd (h ['.'] (by simp [splitOn_here])) (by decide)
    | case2 => rfl
  simp [isRelativeText, hne, hhead, hcolon, hback, hstays]

/-- The names of a path with slashes between them are a path again, and a tidy one. -/
theorem exists_isTidy {f : FilePath} (h : f.segments ≠ []) :
    ∃ g : FilePath, g.IsTidy ∧ g.segments = f.segments := by
  set names := Path.steps f.text.toList with hnames
  have hne : names ≠ [] := fun hnil => h (by rw [segments_eq_map_steps, ← hnames, hnil]; rfl)
  have hmem : ∀ s ∈ names, s ∈ Text.splitOn '/' f.text.toList ∧ Path.isIdle s = false := by
    intro s hs
    obtain ⟨hs, hidle⟩ := List.mem_filter.1 hs
    exact ⟨hs, by simpa using hidle⟩
  have hsplit : Text.splitOn '/' (Text.joinWith ['/'] names) = names :=
    splitOn_joinWith hne fun s hs => Text.not_mem_of_mem_splitOn (hmem s hs).1
  have hchar : ∀ {c}, c ≠ '/' → c ∉ f.text.toList → c ∉ Text.joinWith ['/'] names := by
    intro c hc hnot hmem'
    rcases mem_joinWith hmem' with he | ⟨s, hs, hcs⟩
    · exact hc he
    · exact hnot (Text.mem_of_mem_splitOn (hmem s hs).1 hcs)
  refine ⟨⟨String.ofList (Text.joinWith ['/'] names), ?_, ?_⟩, ?_, ?_⟩
  · rw [String.toList_ofList]
    refine isRelativeText_of_names ?_ (hchar (by decide) f.not_mem_text.1)
      (hchar (by decide) f.not_mem_text.2)
    rw [hsplit]
    exact fun s hs => (hmem s hs).2
  · rw [String.toList_ofList, hasNoParent, hsplit, List.all_eq_true]
    exact fun s hs => List.all_eq_true.1 f.noParent s (hmem s hs).1
  · rw [IsTidy, String.toList_ofList, hsplit]
    exact fun s hs => (hmem s hs).2
  · rw [segments_eq_map_steps, segments_eq_map_steps, String.toList_ofList, ← hnames]
    congr 1
    rw [Path.steps, hsplit]
    exact List.filter_eq_self.2 fun s hs => by rw [(hmem s hs).2]; rfl

/-- Every place but the directory itself has exactly one tidy path. -/
theorem existsUnique_isTidy {f : FilePath} (h : f.segments ≠ []) :
    ∃! g : FilePath, g.IsTidy ∧ g.segments = f.segments := by
  obtain ⟨g, hg, hsegments⟩ := exists_isTidy h
  exact ⟨g, ⟨hg, hsegments⟩, fun g' hg' => hg'.1.eq_of_segments_eq hg (hg'.2.trans hsegments.symm)⟩

end FilePath

/-! ## Trees -/

namespace Tree

variable {t : Tree}

/-- A tree holds a file for each location exactly if no two of its paths have the same names. -/
theorem holdsOnePerPlace_iff : t.HoldsOnePerPlace ↔
    ∀ f ∈ t.entries.map (·.1), ∀ g ∈ t.entries.map (·.1), f.segments = g.segments → f = g := by
  have hmap : ∀ directory, (t.entries.map fun e => location (e.1.diskPath directory)) =
      (t.entries.map (·.1)).map fun f => location (f.diskPath directory) := by
    intro directory
    simp only [List.map_map, Function.comp_def]
  constructor
  · intro h f hf g hg hsegments
    have hnodup := h "/"
    rw [hmap] at hnodup
    refine List.inj_on_of_nodup_map hnodup hf hg ?_
    rw [FilePath.location_diskPath, FilePath.location_diskPath, hsegments]
  · intro h directory
    rw [hmap]
    refine t.distinct.map_on fun f hf g hg he => h f hf g hg ?_
    exact ((FilePath.samePlace_tfae f g directory).out 3 0).1 he

theorem mem_paths_put {p f : FilePath} {content : String} :
    f ∈ (t.put p content).entries.map (·.1) ↔ f = p ∨ f ∈ t.entries.map (·.1) := by
  by_cases hf : f = p
  · simp [put, hf]
  · simp [put, hf]

/-- The paths of a tree are those of the files that were added to it. -/
theorem mem_paths_addAll {files : List GeneratedFile} {f : FilePath} :
    f ∈ (t.addAll files).1.entries.map (·.1) ↔
      f ∈ t.entries.map (·.1) ∨ ∃ g ∈ files, FilePath.parse g.path = .ok f := by
  induction files generalizing t with
  | nil => exact ⟨.inl, fun h => h.elim id fun ⟨_, hg, _⟩ => absurd hg List.not_mem_nil⟩
  | cons g gs ih =>
    have hread : (∃ g' ∈ g :: gs, FilePath.parse g'.path = .ok f) ↔
        FilePath.parse g.path = .ok f ∨ ∃ g' ∈ gs, FilePath.parse g'.path = .ok f := by
      simp
    rw [addAll_cons, hread]
    cases hparse : FilePath.parse g.path with
    | error fault => simp [ih]
    | ok p => rw [ih, mem_paths_put, Except.ok.injEq, or_assoc, or_left_comm, eq_comm (a := p)]

/-- The tree of a list of files holds a file for each location exactly if no two different paths of
the list have the same names. -/
theorem holdsOnePerPlace_addAll_iff {files : List GeneratedFile} :
    (empty.addAll files).1.HoldsOnePerPlace ↔
      Set.InjOn FilePath.segments {f | ∃ g ∈ files, FilePath.parse g.path = .ok f} := by
  have hpaths : ∀ f, f ∈ (empty.addAll files).1.entries.map (·.1) ↔
      ∃ g ∈ files, FilePath.parse g.path = .ok f := by
    intro f
    rw [mem_paths_addAll]
    exact or_iff_right List.not_mem_nil
  rw [holdsOnePerPlace_iff]
  simp only [hpaths]
  rfl

end Tree

/-! ## Canonical paths -/

namespace FilePath

theorem isCanonical_iff_injOn {P : FilePath → Prop} :
    IsCanonical P ↔ Set.InjOn segments {f | P f} ∧ ∀ f, P f → f.text ≠ "." := by
  constructor
  · intro h
    refine ⟨fun f hf g hg he => ?_, fun f hf htext => ?_⟩
    · exact h.eq_of_same f g "/" hf hg (((samePlace_tfae f g "/").out 0 2).1 he)
    · exact h.not_same_directory f "/" hf (same_directory_iff.2 (segments_eq_nil_iff.2 htext))
  · rintro ⟨hinj, hdot⟩
    constructor
    · intro f g directory hf hg h
      exact hinj hf hg (((samePlace_tfae f g directory).out 2 0).1 h)
    · intro f directory hf h
      exact hdot f hf (segments_eq_nil_iff.1 (same_directory_iff.1 h))
    · intro t ht
      refine Tree.holdsOnePerPlace_iff.2 fun f hf g hg he => ?_
      obtain ⟨e, hmem, rfl⟩ := List.mem_map.1 hf
      obtain ⟨e', hmem', rfl⟩ := List.mem_map.1 hg
      exact hinj (ht e hmem) (ht e' hmem') he

theorem isCanonical_isTidy : IsCanonical IsTidy := by
  refine isCanonical_iff_injOn.2 ⟨fun f hf g hg he => IsTidy.eq_of_segments_eq hf hg he, ?_⟩
  intro f hf htext
  rw [IsTidy, htext] at hf
  exact absurd (hf ['.'] (by decide)) (by decide)

/-- Places tell paths exactly among those that have different names, the path of a single dot apart,
and a tree of generated files holds a file for each location exactly if their paths are such. Tidy
paths are, and there is one of them for every place but the directory itself. -/
theorem isCanonical_iff (P : FilePath → Prop) (files : List GeneratedFile) (f : FilePath) :
    (IsCanonical P ↔ Set.InjOn segments {g | P g} ∧ ∀ g, P g → g.text ≠ ".") ∧
    ((Tree.empty.addAll files).1.HoldsOnePerPlace ↔
      Set.InjOn segments {g | ∃ file ∈ files, parse file.path = .ok g}) ∧
    IsCanonical IsTidy ∧
    (f.text = "." ∨ ∃! g : FilePath, g.IsTidy ∧
      ∀ directory, Path.Same (g.diskPath directory) (f.diskPath directory)) := by
  refine ⟨isCanonical_iff_injOn, Tree.holdsOnePerPlace_addAll_iff, isCanonical_isTidy, ?_⟩
  by_cases htext : f.text = "."
  · exact .inl htext
  · have hsame : ∀ g : FilePath,
        (∀ directory, Path.Same (g.diskPath directory) (f.diskPath directory)) ↔
          g.segments = f.segments := by
      intro g
      exact ⟨fun h => ((samePlace_tfae g f "/").out 2 0).1 (h "/"),
        fun h directory => ((samePlace_tfae g f directory).out 0 2).1 h⟩
    simp only [hsame]
    exact .inr (existsUnique_isTidy (mt segments_eq_nil_iff.1 htext))

/-- A path into another directory. -/
def schema : FilePath := ⟨"meta/Schema.json", rfl, rfl⟩

/-- The same place with an empty name on the way. -/
def slashedSchema : FilePath := ⟨"meta//Schema.json", rfl, rfl⟩

/-- The directory itself. -/
def dot : FilePath := ⟨".", rfl, rfl⟩

/-- These paths are read, and two of them lead to one place and the third nowhere else: a tree holds
a file for each. -/
theorem not_isCanonical_schema :
    (parse "meta/Schema.json" = .ok schema ∧ parse "meta//Schema.json" = .ok slashedSchema ∧
      schema ≠ slashedSchema ∧ ∀ directory,
        Path.Same (schema.diskPath directory) (slashedSchema.diskPath directory)) ∧
    (parse "." = .ok dot ∧ ∀ directory, Path.Same (dot.diskPath directory) directory) ∧
    ¬ (Tree.empty.addAll
      [⟨"meta/Schema.json", "a"⟩, ⟨"meta//Schema.json", "b"⟩]).1.HoldsOnePerPlace ∧
    ¬ IsCanonical IsRead := by
  have hschema : parse "meta/Schema.json" = .ok schema := schema.parse_text
  have hslashed : parse "meta//Schema.json" = .ok slashedSchema := slashedSchema.parse_text
  have hne : schema ≠ slashedSchema := by decide +kernel
  have hsegments : schema.segments = slashedSchema.segments := by decide +kernel
  refine ⟨⟨hschema, hslashed, hne, ?_⟩, ⟨dot.parse_text, ?_⟩, ?_, ?_⟩
  · exact fun directory => ((samePlace_tfae schema slashedSchema directory).out 0 2).1 hsegments
  · exact fun directory => same_directory_iff.2 (segments_eq_nil_iff.2 rfl)
  · intro h
    refine hne (Tree.holdsOnePerPlace_addAll_iff.1 h ⟨_, .head _, hschema⟩ ?_ hsegments)
    exact ⟨_, .tail _ (.head _), hslashed⟩
  · intro h
    exact hne ((isCanonical_iff_injOn.1 h).1 ⟨_, hschema⟩ ⟨_, hslashed⟩ hsegments)

end FilePath

end ApiClient
