import ApiClient.Proofs.GeneratedFiles

/-!
# The path of the manifest

The path of the manifest is checked with the options, long before it becomes the path of a generated
file. In between its leading steps that stay where they are are dropped, and what they hid can come
to the front: `.//Schema.json` is a relative path, but `/Schema.json`, which is left of it, is not.

Results:
* `exists_parse_iff`: which paths are read, by their letters.
* `hidesRoot_iff`: a path hides the root exactly if a slash comes first once it is without its
  leading steps.
* `fitsManifest_iff`: the manifest of valid options can be written exactly if its path does not hide
  the root.
* `generate_of_hidesRoot`: otherwise every run that generates code fails before it writes anything.
* `not_fitsManifest_hiddenRoot`: some valid options have such a path.
-/

namespace ApiClient

open Disk Output

/-! ## Specification -/

namespace Path

/-- Steps that stay where they are, then an empty name: the path is relative, but what follows these
steps starts at the root. -/
def HidesRoot (path : String) : Prop :=
  ∃ n rest, forwardSlashes path = (List.replicate n ['.', '/']).flatten ++ '/' :: rest

end Path

namespace Options

/-- The manifest can be written. -/
structure FitsManifest (o : Options) : Prop where
  /-- Its path is read, and leads to a place inside every directory. -/
  inside : ∃ f, FilePath.parse o.manifestPath = .ok f ∧
    ∀ directory, Inside directory (location (f.diskPath directory))
  /-- The generated files are put into a tree, unless the path of another one is refused. -/
  built : ∀ (s : Scan) (code : GeneratedCode), s.generate o = .ok code →
    (∀ f ∈ code.files, f.path ≠ o.manifestPath → ∃ p, FilePath.parse f.path = .ok p) →
    ∃ t, Tree.build code.files = .ok t

end Options

/-! ## Leading steps -/

namespace Path

variable {cs : List Char} {path : String}

theorem dropHere_dropHere (cs : List Char) : dropHere (dropHere cs) = dropHere cs := by
  fun_induction dropHere cs with
  | case1 cs ih => exact ih
  | case2 cs hcs => rw [dropHere.eq_2 cs hcs]

theorem exists_append_dropHere (cs : List Char) :
    ∃ n, cs = (List.replicate n ['.', '/']).flatten ++ dropHere cs := by
  fun_induction dropHere cs with
  | case1 cs ih =>
    obtain ⟨n, hn⟩ := ih
    exact ⟨n + 1, by rw [List.replicate_succ, List.flatten_cons, List.append_assoc, ← hn]; rfl⟩
  | case2 cs => exact ⟨0, rfl⟩

theorem dropHere_append_slash (n : Nat) (rest : List Char) :
    dropHere ((List.replicate n ['.', '/']).flatten ++ '/' :: rest) = '/' :: rest := by
  induction n with
  | zero => rfl
  | succ n ih =>
    rw [List.replicate_succ, List.flatten_cons, List.append_assoc]
    exact ih

theorem hidesRoot_iff : HidesRoot path ↔ (dropHere (forwardSlashes path)).head? = some '/' := by
  constructor
  · rintro ⟨n, rest, h⟩
    rw [h, dropHere_append_slash]
    rfl
  · intro h
    obtain ⟨rest, hrest⟩ := List.head?_eq_some_iff.1 h
    obtain ⟨n, hn⟩ := exists_append_dropHere (forwardSlashes path)
    exact ⟨n, rest, by rw [hn, hrest]⟩

theorem not_mem_forwardSlashes (path : String) : '\\' ∉ forwardSlashes path := by
  intro h
  obtain ⟨c, _, hc⟩ := List.mem_map.1 h
  grind

theorem hasNoParent_dropHere (h : hasNoParent cs = true) : hasNoParent (dropHere cs) = true := by
  fun_induction dropHere cs with
  | case1 cs ih =>
    rw [hasNoParent, splitOn_here, List.all_cons, Bool.and_eq_true] at h
    exact ih h.2
  | case2 cs => exact h

end Path

/-! ## Paths that are read -/

namespace FilePath

theorem exists_parse_iff {path : String} : (∃ f, parse path = .ok f) ↔
    isRelativeText (Path.dropHere (Path.forwardSlashes path)) = true ∧
      hasNoParent (Path.dropHere (Path.forwardSlashes path)) = true := by
  constructor
  · rintro ⟨f, hf⟩
    have htext : f.text.toList = Path.dropHere (Path.forwardSlashes path) := by
      rw [text_of_parse hf, String.toList_ofList]
    rw [← htext]
    exact ⟨f.relative, f.noParent⟩
  · rintro ⟨hrelative, hparent⟩
    refine ⟨⟨String.ofList (Path.dropHere (Path.forwardSlashes path)), ?_, ?_⟩, ?_⟩
    · rwa [String.toList_ofList]
    · rwa [String.toList_ofList]
    · simp only [parse, String.toList_ofList, hrelative, hparent, dif_pos]

end FilePath

/-- A tree is built if all paths are read. -/
theorem Tree.exists_build {files : List GeneratedFile}
    (h : ∀ f ∈ files, ∃ p, FilePath.parse f.path = .ok p) : ∃ t, Tree.build files = .ok t := by
  have hadded : ∀ t : Tree, (t.addAll files).2 = none := by
    induction files with
    | nil => exact fun _ => rfl
    | cons f fs ih =>
      intro t
      obtain ⟨p, hp⟩ := h f (.head _)
      rw [addAll_cons, hp]
      exact ih (fun g hg => h g (.tail _ hg)) _
  rw [build]
  have hnone := hadded empty
  split
  · exact ⟨_, rfl⟩
  · rename_i hadd
    rw [hadd] at hnone
    contradiction

/-! ## Valid options -/

namespace Options

variable {o : Options}

theorem forwardSlashes_manifestPath (o : Options) :
    Path.forwardSlashes o.manifestPath = Path.dropHere (Path.forwardSlashes o.schemaPath) :=
  Path.forwardSlashes_dropHere o.schemaPath

theorem staysInside_of_fault? (ho : o.fault? = none) (hschema : o.generateSchema = true) :
    staysInside o.schemaPath = true := by
  unfold fault? at ho
  grind

/-- What the check of the options says of the path of the manifest: it has a name, and neither a
drive nor a step to a parent. -/
theorem manifest_spec (ho : o.fault? = none) (hschema : o.generateSchema = true) :
    Path.dropHere (Path.forwardSlashes o.schemaPath) ≠ [] ∧
      ':' ∉ Path.dropHere (Path.forwardSlashes o.schemaPath) ∧
        hasNoParent (Path.dropHere (Path.forwardSlashes o.schemaPath)) = true := by
  have hinside := staysInside_of_fault? ho hschema
  simp only [staysInside, Bool.and_eq_true] at hinside
  obtain ⟨⟨_, hcolon⟩, hparent⟩ := hinside
  have hends := Tree.endsIn_manifestPath ho hschema
  rw [forwardSlashes_manifestPath] at hends
  refine ⟨?_, ?_, Path.hasNoParent_dropHere hparent⟩
  · intro hnil
    obtain ⟨init, s, hsteps⟩ := hends
    rw [hnil] at hsteps
    simp [Path.steps, Text.splitOn, Path.isIdle] at hsteps
  · intro hmem
    have hmem := (Path.dropHere_suffix _).subset hmem
    simp [hmem] at hcolon

/-- Of all that the reading of a path asks for, the check leaves open only whether it starts at the
root. -/
theorem exists_parse_manifestPath_iff (ho : o.fault? = none) (hschema : o.generateSchema = true) :
    (∃ f, FilePath.parse o.manifestPath = .ok f) ↔ ¬ Path.HidesRoot o.schemaPath := by
  obtain ⟨hne, hcolon, hparent⟩ := manifest_spec ho hschema
  have hback : '\\' ∉ Path.dropHere (Path.forwardSlashes o.schemaPath) :=
    fun hmem => Path.not_mem_forwardSlashes _ ((Path.dropHere_suffix _).subset hmem)
  rw [FilePath.exists_parse_iff, forwardSlashes_manifestPath, Path.dropHere_dropHere,
    Path.hidesRoot_iff]
  simp [isRelativeText, hne, hcolon, hback, hparent, Path.dropHere_dropHere]

/-- A manifest whose path is read has a name of its own. -/
theorem segments_ne_nil (ho : o.fault? = none) (hschema : o.generateSchema = true) {f : FilePath}
    (hf : FilePath.parse o.manifestPath = .ok f) : f.segments ≠ [] := by
  obtain ⟨init, s, hsteps⟩ := Tree.endsIn_manifestPath ho hschema
  rw [FilePath.segments_of_parse hf, hsteps]
  simp

/-- The manifest of valid options can be written exactly if its path does not hide the root. -/
theorem fitsManifest_iff (ho : o.validate = .ok o) (hschema : o.generateSchema = true) :
    o.FitsManifest ↔ ¬ Path.HidesRoot o.schemaPath := by
  have hfault : o.fault? = none := (validate_eq_ok_iff.1 ho).1
  rw [← exists_parse_manifestPath_iff hfault hschema]
  constructor
  · rintro ⟨⟨f, hf, _⟩, _⟩
    exact ⟨f, hf⟩
  · rintro ⟨f, hf⟩
    constructor
    · refine ⟨f, hf, fun directory => ?_⟩
      exact target_inside (f := (f, "")) (segments_ne_nil hfault hschema hf)
    · intro s code hcode hothers
      apply Tree.exists_build
      intro g hg
      by_cases hpath : g.path = o.manifestPath
      · exact ⟨f, by rw [hpath, hf]⟩
      · exact hothers g hg hpath

/-- A path with a step into another directory, in backslashes. -/
def withNestedManifest : Options :=
  { Options.initial "in" "out" with generateSchema := true, schemaPath := ".\\meta\\Schema.json" }

theorem fitsManifest_iff_nested : withNestedManifest.validate = .ok withNestedManifest ∧
    withNestedManifest.generateSchema = true ∧
      (withNestedManifest.FitsManifest ↔ ¬ Path.HidesRoot withNestedManifest.schemaPath) := by
  have hvalid : withNestedManifest.validate = .ok withNestedManifest :=
    validate_eq_ok_iff.2 ⟨by decide +kernel, rfl⟩
  exact ⟨hvalid, rfl, fitsManifest_iff hvalid rfl⟩

/-- A path whose first step stays where it is, with two slashes after it. -/
def withHiddenRoot : Options :=
  { Options.initial "in" "out" with generateSchema := true, schemaPath := ".//Schema.json" }

/-- These options are valid, but their manifest has no place. -/
theorem not_fitsManifest_hiddenRoot : withHiddenRoot.validate = .ok withHiddenRoot ∧
    withHiddenRoot.generateSchema = true ∧ ¬ withHiddenRoot.FitsManifest := by
  have hvalid : withHiddenRoot.validate = .ok withHiddenRoot :=
    validate_eq_ok_iff.2 ⟨by decide +kernel, rfl⟩
  refine ⟨hvalid, rfl, ?_⟩
  rintro ⟨⟨f, hf, _⟩, _⟩
  have hrefused : FilePath.parse withHiddenRoot.manifestPath =
      .error (.invalidPath "/Schema.json") := by
    rfl
  rw [hrefused] at hf
  contradiction

end Options

/-! ## Runs -/

/-- A run whose manifest hides the root fails when all code is generated, and writes nothing. -/
theorem Run.generate_of_hidesRoot {o : Options} (ho : o.fault? = none)
    (hschema : o.generateSchema = true) (hroot : Path.HidesRoot o.schemaPath)
    {s : Path.Surroundings} {d : Disk} {sc : Scan} {code : GeneratedCode}
    (hscan : Run.scan o s d = .ok sc) (hcode : sc.generate o = .ok code) :
    ∃ fault, (Run.generate o s).run.run d = (.error (.output fault), d) := by
  have hmanifest : o.manifestPath ∈ code.files.map (·.path) := by
    rw [Scan.map_path_files hcode, if_pos hschema]
    exact List.mem_append_right _ (.head _)
  obtain ⟨f, hf, hpath⟩ := List.mem_map.1 hmanifest
  cases hbuild : Tree.build code.files with
  | error fault => exact ⟨fault, Run.generate_of_build_error hscan hcode hbuild⟩
  | ok t =>
    obtain ⟨p, hp⟩ := Tree.parse_of_build hbuild f hf
    rw [hpath] at hp
    exact absurd hroot ((Options.exists_parse_manifestPath_iff ho hschema).1 ⟨p, hp⟩)

end ApiClient
