import ApiClient.Disk.Fault
import ApiClient.Path

/-!
# Disks

A disk holds files and directories by their locations, the names on the way from the root. Names
are told apart by case, and there are no links.

* `Disk.place`: the location that a path leads to.
* `Disk.isFile`, `isDirectory`, `read`, `readText`, `list`: what a path leads to.
* `Disk.makeDirectory`, `write`, `rename`, `remove`: change one entry, or fail and change nothing.
* `Disk.makeDirectories`: a directory with all directories above it; those that were made stay when
  it fails.
-/

namespace ApiClient

/-- The names on the way from the root to an entry. -/
abbrev Location := List String

/-- An entry of a disk. -/
inductive Node where
  | file (content : ByteArray)
  | directory

/-- Entries are compared by their bytes. -/
instance : BEq Node where
  beq
    | .file a, .file b => a == b
    | .directory, .directory => true
    | _, _ => false

/-- Entries by their locations. The root is a directory and not listed. -/
structure Disk where
  entries : List (Location × Node)
  distinct : (entries.map (·.1)).Nodup

/-- Steps on a disk, which may stop with a fault; what they changed before stays. -/
abbrev Disk.Action (ε : Type) := ExceptT ε (StateM Disk)

namespace Disk

/-! ## Entries -/

/-- The disk without entries. -/
def empty : Disk := ⟨[], by simp⟩

/-- The entry of a location. -/
def get? (d : Disk) (l : Location) : Option Node :=
  if l = [] then some .directory else (d.entries.find? (·.1 == l)).map (·.2)

/-- The disk without the entry of a location. -/
def erase (d : Disk) (l : Location) : Disk where
  entries := d.entries.filter (·.1 != l)
  distinct := d.distinct.sublist (List.filter_sublist.map _)

/-- Sets the entry of a location. -/
def put (d : Disk) (l : Location) (n : Node) : Disk where
  entries := (l, n) :: (d.erase l).entries
  distinct := by
    refine List.nodup_cons.2 ⟨fun h => ?_, (d.erase l).distinct⟩
    obtain ⟨e, he, rfl⟩ := List.mem_map.1 h
    simp [erase] at he

/-- The entries right inside a directory, by their names. -/
def children (d : Disk) (l : Location) : List (String × Node) :=
  d.entries.filterMap fun e =>
    match e.1.getLast? with
    | some name => if e.1.dropLast = l then some (name, e.2) else none
    | none => none

/-- The entries anywhere below a directory, by the rest of their locations. -/
def below (d : Disk) (l : Location) : List (Location × Node) :=
  d.entries.filterMap fun e =>
    if e.1.take l.length = l ∧ l.length < e.1.length then some (e.1.drop l.length, e.2) else none

/-! ## Paths -/

/-- The greatest number of bytes of a name. -/
def maxName : Nat := 255

/-- The number of bytes from which on a path is too long. -/
def maxPath : Nat := 4096

/-- The names of a path. -/
def names (p : String) : List String :=
  ((Text.splitOn '/' p.toList).filter (!·.isEmpty)).map String.ofList

/-- The location of a name inside a directory. A dot stays there, two lead to its parent. -/
def step (here : Location) (name : String) : Except Fault Location :=
  if name = "." then .ok here
  else if name = ".." then .ok here.dropLast
  else if maxName < name.utf8ByteSize then .error .nameTooLong
  else .ok (here ++ [name])

/-- Walks from a directory through directories. -/
def walk (d : Disk) (here : Location) : List String → Except Fault Location
  | [] => .ok here
  | name :: names => do
    let here ← step here name
    match d.get? here with
    | some .directory => d.walk here names
    | some (.file _) => .error .notADirectory
    | none => .error .notFound

/-- The location of an absolute path; all names but the last one must be those of directories. -/
def place (d : Disk) (p : String) : Except Fault Location :=
  if p.contains '\x00' then .error .nulInPath
  else if maxPath ≤ p.utf8ByteSize then .error .nameTooLong
  else
    match (names p).getLast? with
    | none => .ok []
    | some name => do
      step (← d.walk [] (names p).dropLast) name

/-- The entry that a path leads to, and its location. A path with a slash at its end leads to no
file. -/
def find (d : Disk) (p : String) : Except Fault (Location × Node) := do
  let l ← d.place p
  match d.get? l with
  | none => .error .notFound
  | some (.file content) =>
    if p.toList.getLast? = some '/' then .error .notADirectory else .ok (l, .file content)
  | some .directory => .ok (l, .directory)

/-! ## Reading -/

/-- A path leads to a file. -/
def isFile (d : Disk) (p : String) : Bool :=
  match d.find p with
  | .ok (_, .file _) => true
  | _ => false

/-- A path leads to a directory. -/
def isDirectory (d : Disk) (p : String) : Bool :=
  match d.find p with
  | .ok (_, .directory) => true
  | _ => false

/-- The content of a file. -/
def read (d : Disk) (p : String) : Except Fault ByteArray := do
  match ← d.find p with
  | (_, .file content) => .ok content
  | (_, .directory) => .error .isADirectory

/-- The content of a file that holds text. -/
def readText (d : Disk) (p : String) : Except Fault String := do
  match String.fromUTF8? (← d.read p) with
  | some text => .ok text
  | none => .error .notText

/-- The entries of a directory. -/
def list (d : Disk) (p : String) : Except Fault (List (String × Node)) := do
  match ← d.find p with
  | (l, .directory) => .ok (d.children l)
  | (_, .file _) => .error .notADirectory

/-- The names of the files of a directory. -/
def files (d : Disk) (p : String) : Except Fault (List String) :=
  (d.list p).map fun entries => entries.filterMap fun e =>
    match e.2 with
    | .file _ => some e.1
    | .directory => none

/-! ## Changing -/

/-- Makes a directory where nothing is. -/
def makeDirectory (d : Disk) (p : String) : Except Fault Disk := do
  let l ← d.place p
  match d.get? l with
  | some _ => .error .alreadyExists
  | none => .ok (d.put l .directory)

/-- Writes a file, in place of the one that is there. -/
def write (d : Disk) (p : String) (content : ByteArray) : Except Fault Disk := do
  let l ← d.place p
  match d.get? l with
  | some .directory => .error .isADirectory
  | _ => .ok (d.put l (.file content))

/-- Moves a file, in place of the one that is there. -/
def rename (d : Disk) (source target : String) : Except Fault Disk := do
  let (l, n) ← d.find source
  let m ← d.place target
  match d.get? m with
  | some .directory => .error .isADirectory
  | _ => .ok ((d.erase l).put m n)

/-- Removes a file. -/
def remove (d : Disk) (p : String) : Except Fault Disk := do
  match ← d.find p with
  | (l, .file _) => .ok (d.erase l)
  | (_, .directory) => .error .isADirectory

/-- The disk without an entry and all that is below it. -/
def removeAll (d : Disk) (l : Location) : Disk where
  entries := d.entries.filter fun e => e.1.take l.length != l
  distinct := d.distinct.sublist (List.filter_sublist.map _)

/-! ## Steps -/

/-- A result as a step that changes nothing. -/
def settle {ε φ α : Type} (fault : φ → ε) : Except φ α → Action ε α
  | .ok a => pure a
  | .error f => throw (fault f)

/-- What a disk tells as a step. -/
def ask {ε φ α : Type} (fault : φ → ε) (answer : Disk → Except φ α) : Action ε α := do
  settle fault (answer (← get))

/-- A single change as a step. -/
def attempt {ε φ : Type} (fault : φ → ε) (change : Disk → Except φ Disk) : Action ε Unit := do
  set (← ask fault change)

/-- Makes a directory, unless there is one. -/
def ensureDirectory (p : String) : Action Fault Unit := do
  match (← get).makeDirectory p with
  | .ok d => set d
  | .error f => if (← get).isDirectory p then pure () else throw f

/-- Makes a directory and those of `above`, nearest first, that it needs. -/
def makeDirectoriesFrom (p : String) : List String → Action Fault Unit
  | [] => ensureDirectory p
  | parent :: above => do
    match (← get).makeDirectory p with
    | .error .notFound => do
      makeDirectoriesFrom parent above
      ensureDirectory p
    | _ => ensureDirectory p

/-- Makes a directory and all above it that are missing. -/
def makeDirectories (p : String) : Action Fault Unit :=
  makeDirectoriesFrom p (Path.ancestors p)

end Disk

end ApiClient
