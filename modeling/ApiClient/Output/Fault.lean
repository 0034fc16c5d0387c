import ApiClient.Disk.Fault

/-!
# Faults of output trees

`OutputFault` lists why a file cannot be put into a tree or a tree into a directory.
-/

namespace ApiClient

/-- Why the output of a run is refused or cannot be written (`FilesError`). -/
inductive OutputFault where
  /-- A tree has no such file. -/
  | notFound (path : String)
  /-- A path is empty or not relative. -/
  | invalidPath (path : String)
  /-- A path leads to a parent. -/
  | invalidComponent (path : String)
  | io (path : String) (fault : Disk.Fault)
  deriving DecidableEq, Repr

namespace OutputFault

/-- The wording of a fault. -/
def message : OutputFault → String
  | .notFound path => "File not found: " ++ path
  | .invalidPath path => "Invalid path: " ++ path
  | .invalidComponent path => "Path contains invalid components: " ++ path
  | .io path fault => "I/O error at " ++ path ++ ": " ++ fault.message

/-- The wordings of a fault and of the cause below it. -/
def chain (f : OutputFault) : List String :=
  match f with
  | .io _ fault => [f.message, fault.message]
  | f => [f.message]

/-- A file is missing. -/
def isNotFound : OutputFault → Bool
  | .notFound _ => true
  | _ => false

/-- A path is bad. -/
def isInvalidPath : OutputFault → Bool
  | .invalidPath _ | .invalidComponent _ => true
  | _ => false

end OutputFault

end ApiClient
