import ApiClient.Generation
import ApiClient.Output.FilePath

/-!
# Output trees

A tree holds the files of a run by their paths.

* `Tree.add`, `Tree.read`, `Tree.contains`: the content of a path.
* `Tree.files`: the files in the order of their paths.
* `Tree.ownedNames`: the entries of a directory that belong to the tree.
* `Tree.build`: the tree of a list of files, or the first bad path.
-/

namespace ApiClient

/-- Files by their paths (`FileSystem`). -/
structure Tree where
  entries : List (FilePath × String)
  distinct : (entries.map (·.1)).Nodup

namespace Tree

/-- The tree without files. -/
def empty : Tree := ⟨[], by simp⟩

/-- The content of a path. -/
def get? (t : Tree) (path : FilePath) : Option String :=
  (t.entries.find? (·.1 == path)).map (·.2)

/-- Sets the content of a path. -/
def put (t : Tree) (path : FilePath) (content : String) : Tree where
  entries := t.entries.filter (·.1 != path) ++ [(path, content)]
  distinct := by
    rw [List.map_append, List.nodup_append]
    refine ⟨t.distinct.sublist (List.filter_sublist.map _), by simp, ?_⟩
    intro a ha b hb he
    simp only [List.mem_map, List.mem_filter] at ha
    obtain ⟨e, ⟨_, hne⟩, rfl⟩ := ha
    simp only [List.map_cons, List.map_nil, List.mem_singleton] at hb
    simp [he, hb] at hne

/-- The number of files. -/
def size (t : Tree) : Nat :=
  t.entries.length

/-- The files in the order of their paths. -/
def files (t : Tree) : List (FilePath × String) :=
  Text.sortByText (·.1.text) t.entries

/-- The names of the entries that belong to the tree, in lower case, sorted (`owned_names`). -/
def ownedNames (t : Tree) : List String :=
  Text.sortByText id (distinctBy id [] (t.entries.map fun f => Text.lower f.1.topLevel))

/-! ## Paths as texts -/

/-- Sets the content of a path (`add_file`). -/
def add (t : Tree) (path content : String) : Except OutputFault Tree :=
  (FilePath.parse path).map fun path => t.put path content

/-- The content of a path, which must be there (`read_file`). -/
def read (t : Tree) (path : String) : Except OutputFault String :=
  (FilePath.parse path).bind fun path =>
    (t.get? path).elim (.error (.notFound path.text)) .ok

/-- A path has a file; a bad path has none (`exists`). -/
def contains (t : Tree) (path : String) : Bool :=
  (t.read path).toOption.isSome

/-! ## Building -/

/-- Adds files in order (`add_files`). Those with bad paths are left out, and the first of their
faults comes with the tree. -/
def addAll (t : Tree) : List GeneratedFile → Tree × Option OutputFault
  | [] => (t, none)
  | f :: fs =>
    match t.add f.path f.content with
    | .ok t => addAll t fs
    | .error fault => ((addAll t fs).1, some fault)

/-- The tree of a list of files (`build` of `FilesBuilder`). -/
def build (files : List GeneratedFile) : Except OutputFault Tree :=
  match empty.addAll files with
  | (t, none) => .ok t
  | (_, some fault) => .error fault

end Tree

end ApiClient
