import ApiClient.Disk
import ApiClient.Settings

/-!
# Settings files

`Settings.readFile` reads a settings document from a disk. A file whose name ends in `.toml`, in any
case, holds TOML, any other JSON.
-/

namespace ApiClient.Settings

/-- The name of a file ends like that of a TOML document. -/
def isTomlFile (path : String) : Bool :=
  (Path.extension? path).any fun e => e.map Char.toLower == "toml"

/-- Reads a document from the file of a path, which is given as it was written and as an absolute
path. -/
def readFile (d : Disk) (path location : String) : Except Error Settings :=
  if d.isFile location then
    match d.readText location with
    | .error fault => .error (.io path fault)
    | .ok text => if isTomlFile path then ofToml text else ofJson text
  else .error (.settingsNotFound path)

/-- The options of a settings file; a relative path starts at the current directory
(`from_settings_file`). -/
def optionsOfFile (d : Disk) (s : Path.Surroundings) (path : String) : Except Error Options := do
  (← readFile d path (Path.join s.current path)).toOptions

end ApiClient.Settings
