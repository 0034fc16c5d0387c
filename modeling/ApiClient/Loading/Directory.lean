import ApiClient.Disk
import ApiClient.FilePattern
import ApiClient.Loading

/-!
# Loading directories

The modules of a directory are the files right inside it whose names fit one of the patterns.

* `moduleFiles`: their paths in order.
* `Loader.addFile`: queues the document of a file; a file that fails is left out, with the reason.
* `loadDirectory`: loads all of them.
-/

namespace ApiClient

/-- The patterns of the names of module files. -/
def filePatterns (patterns : List String) : Except Error (List FilePattern) :=
  patterns.mapM FilePattern.parse

/-- The paths of the module files of a directory, sorted (`find_module_files`). -/
def moduleFiles (d : Disk) (directory : String) (patterns : List String) :
    Except Error (List String) :=
  if d.isDirectory directory then do
    let patterns ← filePatterns patterns
    match d.files directory with
    | .error fault => .error (.io directory fault)
    | .ok names =>
      let names := names.filter fun name => patterns.any (·.covers name)
      .ok ((Text.sortByText id names).map (Path.join directory))
  else .error (.config (.noSourceDirectory directory))

namespace Loader

/-- The document of a file. -/
def readDocument (d : Disk) (path : String) : Except Error ModuleDocument :=
  match d.readText path with
  | .error fault => .error (.io path fault)
  | .ok text =>
    match ModuleDocument.ofJson text with
    | .error fault => .error (.moduleLoad path (.unreadable fault))
    | .ok document => .ok document

/-- The module of a file that does not name it (`module_name_from_path`). -/
def fallbackName (path : String) : String :=
  (Path.fileStem? path).getD path

/-- Queues the document of a file (`try_add_file`). -/
def tryAddFile (d : Disk) (path : String) : Action Unit :=
  match readDocument d path with
  | .error e => throw e
  | .ok document => queue (fallbackName path) document

/-- Queues the document of a file, or notes why it is left out (`add_file`). -/
def addFile (d : Disk) (l : Loader) (path : String) : Loader :=
  match (tryAddFile d path).run.run l with
  | (.ok (), l) => l
  | (.error e, l) => { l with skipped := l.skipped ++ [⟨path, e.message⟩] }

end Loader

/-- Loads the modules of a directory (`load_directory`). -/
def loadDirectory (d : Disk) (directory : String) (patterns : List String) :
    Except Error LoadedModules :=
  (moduleFiles d directory patterns).map fun paths =>
    (paths.foldl (·.addFile d) Loader.empty).load

end ApiClient
