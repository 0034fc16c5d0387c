import ApiClient.Proofs.Sync

/-!
# What a step can change

A step that fails keeps what it changed before. `Disk.after` is the disk that a step leaves either
way, and what is said of it holds whatever the outcome.

Results:
* `makeDirectories_after`: making a directory adds that directory and some above it.
* `names_prefix_of_mem_ancestors`: the directories above a path have the first of its names.
* `writeFile_confined`, `removeFiles_confined`: the changes for a file inside a directory lie inside
  that directory.
* `sync_after`: a sync makes the directory, and otherwise changes only what is inside it.
-/

namespace ApiClient

namespace Disk

variable {ε φ α β : Type} {d d' d'' : Disk} {l : Location} {p q directory : String}

/-! ## The disk after a step -/

/-- The disk that a step leaves, whether it succeeds or not. -/
def after (a : Action ε α) (d : Disk) : Disk :=
  (a.run.run d).2

theorem Succeeds.after_eq {a : Action ε α} {x : α} (h : Succeeds a d x d') : after a d = d' :=
  congrArg Prod.snd h

@[simp] theorem after_pure (x : α) : after (pure x : Action ε α) d = d := rfl

@[simp] theorem after_throw (e : ε) : after (throw e : Action ε α) d = d := rfl

@[simp] theorem after_get_bind {f : Disk → Action ε α} : after (get >>= f) d = after (f d) d := rfl

@[simp] theorem after_set : after (set d' : Action ε Unit) d = d' := rfl

@[simp] theorem after_settle {fault : φ → ε} {r : Except φ α} : after (settle fault r) d = d := by
  cases r <;> rfl

@[simp] theorem after_adapt {a : Action φ α} {fault : φ → ε} :
    after (a.adapt fault : Action ε α) d = after a d := by
  unfold after
  rw [ExceptT.run_adapt, StateT.run_map]
  rfl

/-- A sequence stops after its first step or goes on from the disk that this one left. -/
theorem after_bind (a : Action ε α) (f : α → Action ε β) (d : Disk) :
    after (a >>= f) d = after a d ∨
      ∃ x d', Succeeds a d x d' ∧ after (a >>= f) d = after (f x) d' := by
  unfold after Succeeds
  rw [ExceptT.run_bind, StateT.run_bind]
  generalize a.run.run d = result
  obtain ⟨_ | x, d₁⟩ := result
  · exact .inl rfl
  · exact .inr ⟨x, d₁, rfl, rfl⟩

/-- What both parts of a sequence do, the sequence does. -/
theorem after_bind_of_trans {R : Disk → Disk → Prop}
    (htrans : ∀ {d d' d''}, R d d' → R d' d'' → R d d'') {a : Action ε α} {f : α → Action ε β}
    (ha : R d (after a d)) (hf : ∀ x d', Succeeds a d x d' → R d' (after (f x) d')) :
    R d (after (a >>= f) d) := by
  rcases after_bind a f d with h | ⟨x, d', hx, h⟩ <;> rw [h]
  · exact ha
  · exact htrans (hx.after_eq ▸ ha) (hf x d' hx)

@[simp] theorem after_ask {fault : φ → ε} {answer : Disk → Except φ α} :
    after (ask fault answer) d = d := by
  rcases after_bind get (fun d => settle fault (answer d)) d with h | ⟨x, d', hx, h⟩
  · exact h
  · obtain ⟨rfl, rfl⟩ := succeeds_get.1 hx
    exact h.trans after_settle

/-- A change happens or does not. -/
theorem after_attempt (fault : φ → ε) (change : Disk → Except φ Disk) (d : Disk) :
    after (attempt fault change) d = d ∨ change d = .ok (after (attempt fault change) d) := by
  rcases after_bind (ask fault change) set d with h | ⟨x, d', hx, h⟩
  · exact .inl (h.trans after_ask)
  · obtain ⟨hchange, rfl⟩ := succeeds_ask.1 hx
    exact .inr (hchange.trans (congrArg Except.ok h.symm))

/-! ## Making directories -/

/-- The second disk has what the first one has, and besides directories where these paths lead. -/
def Makes (ps : List String) (d d' : Disk) : Prop :=
  ∀ l, d'.get? l = d.get? l ∨
    d.get? l = none ∧ d'.get? l = some .directory ∧ ∃ p ∈ ps, l = location p

namespace Makes

variable {ps : List String}

theorem refl (ps : List String) (d : Disk) : Makes ps d d :=
  fun _ => .inl rfl

theorem trans (h : Makes ps d d') (h' : Makes ps d' d'') : Makes ps d d'' := by
  intro l
  rcases h l with hl | ⟨hnone, hl, hp⟩ <;> rcases h' l with hl' | ⟨hnone', hl', hp'⟩
  · exact .inl (hl'.trans hl)
  · exact .inr ⟨hl ▸ hnone', hl', hp'⟩
  · exact .inr ⟨hnone, hl'.trans hl, hp⟩
  · exact .inr ⟨hnone, hl', hp⟩

theorem mono {qs : List String} (hsub : ∀ p ∈ ps, p ∈ qs) (h : Makes ps d d') : Makes qs d d' :=
  fun l => (h l).imp_right fun ⟨hnone, hl, p, hp, he⟩ => ⟨hnone, hl, p, hsub p hp, he⟩

theorem toExtends (h : Makes ps d d') : d.Extends d' :=
  fun l => (h l).imp_right fun ⟨hnone, hl, _⟩ => ⟨hnone, hl⟩

end Makes

theorem makeDirectory_makes (h : d.makeDirectory p = .ok d') : Makes [p] d d' := by
  obtain ⟨l, hplace, hnone, rfl⟩ := makeDirectory_eq_ok.1 h
  obtain rfl := place_eq_location hplace
  intro m
  rw [get?_put (ne_nil_of_none hnone)]
  split
  · rename_i hm
    exact .inr ⟨hm ▸ hnone, rfl, p, .head _, hm⟩
  · exact .inl rfl

theorem ensureDirectory_after (p : String) (d : Disk) :
    Makes [p] d (after (ensureDirectory p) d) := by
  rw [ensureDirectory, after_get_bind]
  split
  · rename_i made hmade
    exact makeDirectory_makes hmade
  · rw [after_get_bind]
    split <;> exact .refl _ _

theorem makeDirectoriesFrom_after (p : String) (above : List String) (d : Disk) :
    Makes (p :: above) d (after (makeDirectoriesFrom p above) d) := by
  induction above generalizing p d with
  | nil => exact ensureDirectory_after p d
  | cons parent above ih =>
    have hself : ∀ d, Makes (p :: parent :: above) d (after (ensureDirectory p) d) :=
      fun d => (ensureDirectory_after p d).mono (by simp)
    rw [makeDirectoriesFrom, after_get_bind]
    split
    · refine after_bind_of_trans (R := Makes (p :: parent :: above)) .trans ?_
        fun _ d' _ => hself d'
      exact (ih parent _).mono fun q hq => .tail _ hq
    · exact hself _

theorem makeDirectories_after (p : String) (d : Disk) :
    Makes (p :: Path.ancestors p) d (after (makeDirectories p) d) :=
  makeDirectoriesFrom_after p _ d

/-! ## Directories above a path -/

theorem splitOn_joinWith {sep : Char} {ss : List (List Char)} (hne : ss ≠ [])
    (h : ∀ s ∈ ss, sep ∉ s) : Text.splitOn sep (Text.joinWith [sep] ss) = ss := by
  induction ss with
  | nil => exact absurd rfl hne
  | cons s ss ih =>
    have hs : Text.splitOn sep s = [s] := Text.splitOn_of_not_mem (h s (.head _))
    cases ss with
    | nil => exact hs
    | cons t ts =>
      have hrest := ih (by simp) fun u hu => h u (.tail _ hu)
      rw [Text.joinWith, List.append_assoc, List.singleton_append, Text.splitOn_append_cons, hs,
        hrest]
      · rfl
      · simp

/-- The names of a path from the root are those of its parts that are not empty. -/
theorem names_joinWith {ss : List (List Char)} (h : ∀ s ∈ ss, '/' ∉ s) :
    names (String.ofList ('/' :: Text.joinWith ['/'] ss)) =
      (ss.filter (!·.isEmpty)).map String.ofList := by
  rw [names, String.toList_ofList, Text.splitOn, if_pos rfl]
  cases ss with
  | nil => rfl
  | cons s ss => rw [splitOn_joinWith (by simp) h, List.filter_cons_of_neg (by simp)]

theorem names_prefix_of_mem_above {ss : List (List Char)} (h : ∀ s ∈ ss, '/' ∉ s)
    (hq : q ∈ Path.above ss) :
    Path.isAbsolute q = true ∧ names q <+: (ss.reverse.filter (!·.isEmpty)).map String.ofList := by
  induction ss with
  | nil => simp [Path.above] at hq
  | cons s ss ih =>
    have hss : ∀ t ∈ ss, '/' ∉ t := fun t ht => h t (.tail _ ht)
    have hinit : (ss.reverse.filter (!·.isEmpty)).map String.ofList <+:
        ((s :: ss).reverse.filter (!·.isEmpty)).map String.ofList := by
      rw [List.reverse_cons]
      exact ((List.prefix_append _ _).filter _).map _
    have habove : q ∈ Path.above ss → Path.isAbsolute q = true ∧
        names q <+: ((s :: ss).reverse.filter (!·.isEmpty)).map String.ofList :=
      fun hq => (ih hss hq).imp_right fun hnames => hnames.trans hinit
    rw [Path.above] at hq
    split at hq
    · exact habove hq
    · rcases List.mem_cons.1 hq with rfl | hq
      · have hrest : (ss.dropWhile Path.isIdle).reverse <+: ss.reverse :=
          List.reverse_prefix.2 (List.dropWhile_suffix _)
        refine ⟨by simp [Path.isAbsolute], ?_⟩
        rw [names_joinWith fun t ht => hss t (by simpa using hrest.subset ht)]
        exact ((hrest.filter _).map _).trans hinit
      · exact habove hq

/-- The directories above a path have the first of its names. -/
theorem names_prefix_of_mem_ancestors (hp : Path.isAbsolute p = true)
    (hq : q ∈ Path.ancestors p) : Path.isAbsolute q = true ∧ names q <+: names p := by
  obtain ⟨cs, hcs⟩ := List.head?_eq_some_iff.1 (eq_of_beq hp)
  have hslash : ∀ s ∈ (Text.splitOn '/' (p.toList.drop 1)).reverse, '/' ∉ s := fun s hs =>
    Text.not_mem_of_mem_splitOn (List.mem_reverse.1 hs)
  have hnames : names p = ((Text.splitOn '/' cs).filter (!·.isEmpty)).map String.ofList := by
    rw [names, hcs, Text.splitOn, if_pos rfl, List.filter_cons_of_neg (by simp)]
  obtain ⟨habsolute, hinit⟩ := names_prefix_of_mem_above hslash hq
  rw [List.reverse_reverse, hcs, List.drop_one, List.tail_cons, ← hnames] at hinit
  exact ⟨habsolute, hinit⟩

theorem get?_of_walk {here : Location} {ns : List String} (hhere : d.get? here = some .directory)
    (h : d.walk here ns = .ok l) : d.get? l = some .directory := by
  induction ns generalizing here with
  | nil => exact Except.ok.inj h ▸ hhere
  | cons n ns ih =>
    obtain ⟨next, _, hnext, hrest⟩ := walk_cons.1 h
    exact ih hnext hrest

/-- Where the first names of a directory's path lead there is a directory. -/
theorem get?_of_leading_names (h : d.isDirectory directory = true)
    (hq : names q <+: names directory) : d.get? (location q) = some .directory := by
  obtain ⟨rest, hrest⟩ := hq
  have hwalk := walk_names h
  rw [← hrest] at hwalk
  obtain ⟨l, hl, _⟩ := walk_append.1 hwalk
  rw [location, ← walk_eq_foldl hl]
  exact get?_of_walk (get?_nil d) hl

/-! ## Changes inside a directory -/

/-- The location lies inside a directory, below it by names. -/
def Inside (directory : String) (l : Location) : Prop :=
  ∃ ns, ns ≠ [] ∧ (∀ n ∈ ns, IsName n) ∧ l = location directory ++ ns

/-- Directories stay, and what is not inside this one stays as it is. -/
structure Confined (directory : String) (d d' : Disk) : Prop where
  keepsDirectories : d.KeepsDirectories d'
  get?_eq : ∀ l, ¬ Inside directory l → d'.get? l = d.get? l

namespace Confined

theorem refl (directory : String) (d : Disk) : Confined directory d d :=
  ⟨fun _ h => h, fun _ _ => rfl⟩

theorem trans (h : Confined directory d d') (h' : Confined directory d' d'') :
    Confined directory d d'' :=
  ⟨h.keepsDirectories.trans h'.keepsDirectories,
    fun l hl => (h'.get?_eq l hl).trans (h.get?_eq l hl)⟩

theorem isDirectory (h : Confined directory d d') (hd : d.isDirectory p = true) :
    d'.isDirectory p = true :=
  h.keepsDirectories.isDirectory hd

end Confined

theorem inside_of_names {ns : List String} (hne : ns ≠ []) (hns : ∀ n ∈ ns, IsName n)
    (h : names p = names directory ++ ns) : Inside directory (location p) := by
  refine ⟨ns, hne, hns, ?_⟩
  rw [location, h, List.foldl_append, foldl_enter hns]
  rfl

/-- The directories that a path inside a directory needs are inside it or there already. -/
theorem makeDirectories_confined {ns : List String} {parent : String}
    (hd : d.isDirectory directory = true) (hns : ∀ n ∈ ns, IsName n)
    (habsolute : Path.isAbsolute p = true) (hp : names p = names directory ++ ns)
    (hparent : Path.parent? p = some parent) :
    Confined directory d (after (makeDirectories parent) d) := by
  have hinit : ∀ q ∈ parent :: Path.ancestors parent, names q <+: names p := by
    obtain ⟨habove, hfirst⟩ :=
      names_prefix_of_mem_ancestors habsolute (List.mem_of_head? hparent)
    intro q hq
    rcases List.mem_cons.1 hq with rfl | hq
    · exact hfirst
    · exact (names_prefix_of_mem_ancestors habove hq).2.trans hfirst
  have hmakes := makeDirectories_after parent d
  refine ⟨hmakes.toExtends.keepsDirectories, fun l hl => (hmakes l).resolve_right ?_⟩
  rintro ⟨hnone, _, q, hq, rfl⟩
  rcases List.prefix_or_prefix_of_prefix (hinit q hq) (hp ▸ List.prefix_append _ ns) with
    habove | hbelow
  · simp [get?_of_leading_names hd habove] at hnone
  · obtain ⟨ms, hms⟩ := hbelow
    have hsub : ms <+: ns := by
      have := hinit q hq
      rwa [hp, ← hms, List.prefix_append_right_inj] at this
    by_cases hempty : ms = []
    · have habove : names q <+: names directory := by simp [← hms, hempty]
      simp [get?_of_leading_names hd habove] at hnone
    · exact hl (inside_of_names hempty (fun n hn => hns n (hsub.subset hn)) hms.symm)

theorem write_confined {c : ByteArray} (hp : Inside directory (location p))
    (h : d.write p c = .ok d') : Confined directory d d' := by
  obtain ⟨hkeep, hget⟩ := write_spec h
  refine ⟨hkeep, fun l hl => ?_⟩
  rw [hget, if_neg]
  rintro rfl
  exact hl hp

theorem rename_confined {source : String} {c : ByteArray}
    (hsource : Inside directory (location source)) (hp : Inside directory (location p))
    (hfile : d.get? (location source) = some (.file c)) (h : d.rename source p = .ok d') :
    Confined directory d d' := by
  obtain ⟨hkeep, _, hget⟩ := rename_spec hfile h
  refine ⟨hkeep, fun l hl => ?_⟩
  rw [hget, if_neg, if_neg]
  · rintro rfl
    exact hl hsource
  · rintro rfl
    exact hl hp

theorem remove_confined (hp : Inside directory (location p)) (h : d.remove p = .ok d') :
    Confined directory d d' := by
  obtain ⟨l, c, hfind, rfl⟩ := remove_eq_ok.1 h
  obtain ⟨hplace, hfile, _⟩ := find_eq_ok.1 hfind
  obtain rfl := place_eq_location hplace
  have hdirectory : d.get? (location p) ≠ some .directory := by simp [hfile]
  refine ⟨erase_keepsDirectories hdirectory, fun l hl => ?_⟩
  rw [get?_erase (ne_nil_of_not_directory hdirectory), if_neg]
  rintro rfl
  exact hl hp

end Disk

namespace Output

open Disk

variable {d : Disk} {directory : String} {f : FilePath × String}

/-! ## Places of files -/

theorem isAbsolute_join (h : Path.isAbsolute directory = true) (path : String) :
    Path.isAbsolute (Path.join directory path) = true := by
  obtain ⟨cs, hcs⟩ := List.head?_eq_some_iff.1 (eq_of_beq h)
  rw [Path.join]
  split
  · assumption
  · split <;> simp [Path.isAbsolute, hcs]

theorem isAbsolute_diskPath (h : Path.isAbsolute directory = true) (f : FilePath) :
    Path.isAbsolute (f.diskPath directory) = true := by
  rw [FilePath.diskPath]
  induction f.segments generalizing directory with
  | nil => exact h
  | cons n ns ih => exact ih (isAbsolute_join h n)

/-- A file that has a name of its own lies inside the directory. -/
theorem target_inside (hsegments : f.1.segments ≠ []) :
    Inside directory (location (f.1.diskPath directory)) :=
  inside_of_names hsegments (fun _ => FilePath.isName_of_mem_segments)
    (FilePath.names_diskPath directory f.1)

/-- So does the file under its temporary name. -/
theorem temporary_inside (hsegments : f.1.segments ≠ []) :
    Inside directory (location (temporaryPath (f.1.diskPath directory))) := by
  obtain ⟨ns, n, h⟩ := (List.eq_nil_or_concat' f.1.segments).resolve_left hsegments
  have hname : ∀ m ∈ f.1.segments, IsName m := fun _ => FilePath.isName_of_mem_segments
  have htemporary : ∀ m ∈ ns ++ [n ++ ".tmp"], IsName m := by
    intro m hm
    rcases List.mem_append.1 hm with hm | hm
    · exact hname m (by simp [h, hm])
    · rw [List.mem_singleton.1 hm]
      exact (hname n (by simp [h])).append_tmp
  exact ⟨_, by simp, htemporary, temporary_eq h⟩

/-! ## The steps of a sync -/

/-- The file is written under its temporary name and moved to its place. -/
theorem replace_confined {path : String} {c : ByteArray} (hpath : Inside directory (location path))
    (htemporary : Inside directory (location (temporaryPath path))) (d : Disk) :
    Confined directory d (after (do
      Disk.attempt (.io (temporaryPath path)) (·.write (temporaryPath path) c)
      Disk.attempt (.io path) (·.rename (temporaryPath path) path) : Action OutputFault Unit)
      d) := by
  refine after_bind_of_trans (R := Confined directory) .trans ?_ fun _ d₁ hwrite => ?_
  · rcases after_attempt (OutputFault.io (temporaryPath path))
      (·.write (temporaryPath path) c) d with h | h
    · rw [h]
      exact .refl _ _
    · exact write_confined htemporary h
  · have hfile : d₁.get? (location (temporaryPath path)) = some (.file c) := by
      rw [(write_spec (succeeds_attempt.1 hwrite)).2, if_pos rfl]
    rcases after_attempt (OutputFault.io path) (·.rename (temporaryPath path) path) d₁ with h | h
    · rw [h]
      exact .refl _ _
    · exact rename_confined htemporary hpath hfile h

theorem writeFile_confined {content : String} (hdirectory : d.isDirectory directory = true)
    (habsolute : Path.isAbsolute directory = true) (hsegments : f.1.segments ≠ []) :
    Confined directory d (after (writeFile (f.1.diskPath directory) content) d) := by
  have htarget : Inside directory (location (f.1.diskPath directory)) := target_inside hsegments
  have hreplace := replace_confined (c := content.toUTF8) htarget (temporary_inside hsegments)
  unfold writeFile
  cases hparent : Path.parent? (f.1.diskPath directory) with
  | none => exact hreplace d
  | some parent =>
    refine after_bind_of_trans (R := Confined directory) .trans ?_ fun _ d₁ _ => hreplace d₁
    rw [after_adapt]
    exact makeDirectories_confined hdirectory (fun _ => FilePath.isName_of_mem_segments)
      (isAbsolute_diskPath habsolute f.1) (FilePath.names_diskPath directory f.1) hparent

/-- A file without a name of its own would take the place of the directory. It is not written. -/
theorem syncFile_of_segments_nil (hdirectory : d.isDirectory directory = true)
    (hsegments : f.1.segments = []) : after (syncFile directory f) d = d := by
  rcases after_bind (holds (f.1.diskPath directory) f.2) _ d with h | ⟨same, d₁, hholds, _⟩
  · exact h.trans after_ask
  · have hfile := (holds_spec hholds).2.2
    rw [FilePath.diskPath, hsegments, List.foldl_nil] at hfile
    exact absurd hdirectory hfile

theorem syncFile_confined (hdirectory : d.isDirectory directory = true)
    (habsolute : Path.isAbsolute directory = true) :
    Confined directory d (after (syncFile directory f) d) := by
  by_cases hsegments : f.1.segments = []
  · rw [syncFile_of_segments_nil hdirectory hsegments]
    exact .refl _ _
  · rw [syncFile]
    refine after_bind_of_trans (R := Confined directory) .trans ?_ fun same d₁ hholds => ?_
    · rw [holds, after_ask]
      exact .refl _ _
    · obtain ⟨rfl, _, _⟩ := holds_spec hholds
      split
      · exact .refl _ _
      · refine after_bind_of_trans (R := Confined directory) .trans ?_ fun _ d₂ _ => .refl _ _
        exact writeFile_confined hdirectory habsolute hsegments

theorem syncFiles_confined {fs : List (FilePath × String)}
    (hdirectory : d.isDirectory directory = true) (habsolute : Path.isAbsolute directory = true) :
    Confined directory d (after (syncFiles directory fs) d) := by
  induction fs generalizing d with
  | nil => exact .refl _ _
  | cons f fs ih =>
    have hfile : Confined directory d (after (syncFile directory f) d) :=
      syncFile_confined hdirectory habsolute
    rw [syncFiles]
    refine after_bind_of_trans (R := Confined directory) .trans hfile fun _ d₁ hsuccess => ?_
    have hdirectory₁ := (hsuccess.after_eq ▸ hfile).isDirectory hdirectory
    exact after_bind_of_trans (R := Confined directory) .trans (ih hdirectory₁) fun _ d₂ _ =>
      .refl _ _

theorem removeFiles_confined {names : List String} (hnames : ∀ n ∈ names, IsName n) (d : Disk) :
    Confined directory d (after (removeFiles directory names) d) := by
  induction names generalizing d with
  | nil => exact .refl _ _
  | cons n names ih =>
    have hinside : Inside directory (location (Path.join directory n)) :=
      ⟨[n], by simp, by simpa using hnames n (.head _), (hnames n (.head _)).location_join _⟩
    rw [removeFiles]
    refine after_bind_of_trans (R := Confined directory) .trans ?_ fun _ d₁ _ =>
      ih (fun m hm => hnames m (.tail _ hm)) d₁
    rcases after_attempt (OutputFault.io (Path.join directory n))
      (·.remove (Path.join directory n)) d with h | h
    · rw [h]
      exact .refl _ _
    · exact remove_confined hinside h

end Output

namespace Tree

open Disk Output

variable {t : Tree} {directory : String} {d d' : Disk}

/-- What changed lies inside the directory, or is the directory or one above it that was missing. -/
def Changes (directory : String) (d d' : Disk) : Prop :=
  ∀ l, ¬ Inside directory l → d'.get? l = d.get? l ∨
    d.get? l = none ∧ d'.get? l = some .directory ∧
      ∃ p ∈ directory :: Path.ancestors directory, l = location p

/-- A file right inside the directory has a name, whether it was there at first or came later. -/
theorem isName_of_confined {ps : List String} (hd : d.WellFormed) {d₀ : Disk}
    (hmakes : Makes ps d d₀) (hconfined : Confined directory d₀ d') {name : String}
    (h : name ∈ d'.fileNames (location directory)) : IsName name := by
  obtain ⟨c, hc⟩ := mem_fileNames.1 h
  by_cases hinside : Inside directory (location directory ++ [name])
  · obtain ⟨ns, _, hns, he⟩ := hinside
    exact hns name (List.append_cancel_left he ▸ List.mem_singleton_self name)
  · have hfile : d₀.file? (location directory ++ [name]) = some c := by
      rw [← hc, file?, file?, hconfined.get?_eq _ hinside]
    rw [hmakes.toExtends.file?_eq, file?_eq_some_iff] at hfile
    exact hd.isName (location directory) name (by simp [hfile])

/-- A sync makes the directory and otherwise changes only what is inside it, whether it succeeds or
fails. -/
theorem sync_after (hd : d.WellFormed) (habsolute : Path.isAbsolute directory = true) :
    d.KeepsDirectories (after (t.sync directory) d) ∧
      Changes directory d (after (t.sync directory) d) := by
  have hmakes := makeDirectories_after directory d
  have hcombine : ∀ d₀ d', Makes (directory :: Path.ancestors directory) d d₀ →
      Confined directory d₀ d' → d.KeepsDirectories d' ∧ Changes directory d d' := by
    intro d₀ d' hmakes hconfined
    refine ⟨hmakes.toExtends.keepsDirectories.trans hconfined.keepsDirectories, fun l hl => ?_⟩
    rw [hconfined.get?_eq l hl]
    exact hmakes l
  unfold sync
  rcases after_bind ((makeDirectories directory).adapt (OutputFault.io directory)) _ d with
    h | ⟨_, d₀, hmake, h⟩ <;> rw [h]
  · rw [after_adapt]
    exact hcombine _ _ hmakes (.refl _ _)
  have hmake := succeeds_adapt.1 hmake
  rw [hmake.after_eq] at hmakes
  refine hcombine _ _ hmakes ?_
  have hfiles : Confined directory d₀ (after (syncFiles directory t.files) d₀) :=
    syncFiles_confined (makeDirectories_spec hmake).2 habsolute
  refine after_bind_of_trans (R := Confined directory) .trans hfiles fun files d₁ hsuccess => ?_
  rw [hsuccess.after_eq] at hfiles
  refine after_bind_of_trans (R := Confined directory) .trans ?_ fun names d₂ hask => ?_
  · rw [after_ask]
    exact .refl _ _
  · obtain ⟨hnames, rfl⟩ := succeeds_ask.1 hask
    obtain ⟨l, hplace, _, rfl⟩ := files_eq_ok.1 hnames
    obtain rfl := place_eq_location hplace
    refine after_bind_of_trans (R := Confined directory) .trans ?_ fun _ d₃ _ => .refl _ _
    exact removeFiles_confined
      (fun name hname => isName_of_confined hd hmakes hfiles (mem_stale.1 hname).1) d₁

end Tree

end ApiClient
