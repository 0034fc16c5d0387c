import ApiClient.Disk
import ApiClient.Output.Tree

/-!
# Syncing trees

`Tree.sync` brings a directory up to date with a tree.

* A file is written only when its bytes differ from those on disk. It is written beside its place
  first and then moved there, so that a file is never left half written.
* Afterwards the files right inside the directory that do not belong to the tree, up to case, are
  removed. Directories are left alone.
-/

namespace ApiClient

/-- What a sync did. -/
structure SyncReport where
  destination : String
  /-- The files that were missing or different. -/
  written : List String
  /-- The files that were the same. -/
  unchanged : List String
  /-- The names of the files that did not belong to the tree. -/
  deleted : List String
  deriving DecidableEq, Repr

/-- The sync changed a file (`has_changes`). -/
def SyncReport.hasChanges (r : SyncReport) : Bool :=
  !r.written.isEmpty || !r.deleted.isEmpty

namespace Output

/-- Where a file is written before it is moved to its place. -/
def temporaryPath (path : String) : String :=
  path ++ ".tmp"

/-- A file holds the bytes of a text (`is_unchanged`). A missing file does not. -/
def holds (path content : String) : Disk.Action OutputFault Bool :=
  Disk.ask (.io path) fun d =>
    match d.read path with
    | .ok bytes => .ok (bytes == content.toUTF8)
    | .error .notFound => .ok false
    | .error f => .error f

/-- Writes a file beside its place and moves it there, with the directories that it needs
(`write_file_atomic`). -/
def writeFile (path content : String) : Disk.Action OutputFault Unit := do
  if let some parent := Path.parent? path then
    (Disk.makeDirectories parent).adapt (.io parent)
  let temporary := temporaryPath path
  Disk.attempt (.io temporary) (·.write temporary content.toUTF8)
  Disk.attempt (.io path) (·.rename temporary path)

/-- Brings a file up to date and tells whether it had to be written. -/
def syncFile (directory : String) (f : FilePath × String) : Disk.Action OutputFault Bool := do
  let path := f.1.diskPath directory
  if ← holds path f.2 then pure false
  else
    writeFile path f.2
    pure true

/-- Brings files up to date in order, and tells for each whether it had to be written. -/
def syncFiles (directory : String) :
    List (FilePath × String) → Disk.Action OutputFault (List (String × Bool))
  | [] => pure []
  | f :: fs => do
    let written ← syncFile directory f
    let rest ← syncFiles directory fs
    pure ((f.1.text, written) :: rest)

/-- Removes the named files from a directory (the loop of `remove_stale`). -/
def removeFiles (directory : String) : List String → Disk.Action OutputFault Unit
  | [] => pure ()
  | name :: names => do
    let path := Path.join directory name
    Disk.attempt (.io path) (·.remove path)
    removeFiles directory names

end Output

namespace Tree

/-- The names of files that do not belong to the tree. -/
def stale (t : Tree) (names : List String) : List String :=
  names.filter fun name => !t.ownedNames.contains (Text.lower name)

/-- Brings an absolute directory up to date (`sync_to`). -/
def sync (t : Tree) (directory : String) : Disk.Action OutputFault SyncReport := do
  (Disk.makeDirectories directory).adapt (.io directory)
  let files ← Output.syncFiles directory t.files
  let stale := t.stale (← Disk.ask (.io directory) (·.files directory))
  Output.removeFiles directory stale
  pure {
    destination := directory
    written := (files.filter (·.2)).map (·.1)
    unchanged := (files.filter (!·.2)).map (·.1)
    deleted := Text.sortByText id stale }

end Tree

end ApiClient
