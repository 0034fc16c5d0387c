import ApiClient.Text.Split

/-!
# Paths

Paths are texts with a slash between their names. Empty names and names of one dot say nothing, a
leading dot apart; two dots lead to the parent.

* `Path.join`: a path as seen from a directory.
* `Path.fileName?`, `fileStem?`, `extension?`: the last name and its two parts.
* `Path.ancestors`: the directories above an absolute path.
* `Path.resolve`: an absolute path, from the home and the current directory.
-/

namespace ApiClient.Path

/-- A step of a path. -/
inductive Component where
  | root
  | here
  | parent
  | name (text : String)
  deriving DecidableEq, Repr

/-- The step of a name inside a path; none for a name that says nothing. -/
def Component.ofName? (name : List Char) : Option Component :=
  if name = [] ∨ name = ['.'] then none
  else if name = ['.', '.'] then some .parent
  else some (.name (String.ofList name))

/-- The path starts at the root. -/
def isAbsolute (p : String) : Bool :=
  p.toList.head? == some '/'

/-- The steps of a path. -/
def components (p : String) : List Component :=
  let names := Text.splitOn '/' p.toList
  let steps := names.filterMap Component.ofName?
  if isAbsolute p then .root :: steps
  else if names.head? = some ['.'] then .here :: steps
  else steps

/-- A path as seen from a directory: an absolute one stays. -/
def join (directory p : String) : String :=
  if isAbsolute p then p
  else if directory.isEmpty || directory.toList.getLast? == some '/' then directory ++ p
  else directory ++ "/" ++ p

/-- The last name, unless the path ends in another kind of step. -/
def fileName? (p : String) : Option String :=
  match (components p).getLast? with
  | some (.name text) => some text
  | _ => none

/-- A name split at its last dot, which must not be its first character. -/
def splitName (name : List Char) : List Char × Option (List Char) :=
  let ending := name.reverse.takeWhile (· != '.')
  let stem := (name.reverse.drop (ending.length + 1)).reverse
  if stem.isEmpty then (name, none) else (stem, some ending.reverse)

/-- The last name up to its last dot. -/
def fileStem? (p : String) : Option String :=
  (fileName? p).map fun n => String.ofList (splitName n.toList).1

/-- The last name after its last dot. -/
def extension? (p : String) : Option String :=
  (fileName? p).bind fun n => (splitName n.toList).2.map String.ofList

/-- A name that says nothing inside a path. -/
def isIdle (name : List Char) : Bool :=
  name.isEmpty || name == ['.']

/-- The path below the home directory that follows a leading tilde, without idle names at its
ends. -/
def belowHome? (p : String) : Option String :=
  match Text.splitOn '/' p.toList with
  | ['~'] :: names =>
    let names := ((names.dropWhile isIdle).reverse.dropWhile isIdle).reverse
    some (String.ofList (Text.joinWith ['/'] names))
  | _ => none

/-- The characters of a path in which backslashes part names, with slashes in their place. -/
def forwardSlashes (p : String) : List Char :=
  p.toList.map fun c => if c = '\\' then '/' else c

/-- A path without the leading steps that stay where they are. -/
def dropHere : List Char → List Char
  | '.' :: '/' :: cs => dropHere cs
  | cs => cs

/-! ## Absolute paths -/

/-- The directories above an absolute path, nearest first, from its names in reverse. -/
def above : List (List Char) → List String
  | [] => []
  | name :: names =>
    if isIdle name then above names
    else String.ofList ('/' :: Text.joinWith ['/'] (names.dropWhile isIdle).reverse) :: above names

/-- The directories above an absolute path, nearest first. -/
def ancestors (p : String) : List String :=
  above (Text.splitOn '/' (p.toList.drop 1)).reverse

/-- The directory that an absolute path lies in. -/
def parent? (p : String) : Option String :=
  (ancestors p).head?

/-- The directories that paths are resolved against. -/
structure Surroundings where
  home : String
  current : String
  deriving DecidableEq, Repr

/-- A path with its leading tilde replaced by the home directory. -/
def expandHome (s : Surroundings) (p : String) : String :=
  match belowHome? p with
  | some rest => join s.home rest
  | none => p

/-- The absolute path (`resolve_path`). -/
def resolve (s : Surroundings) (p : String) : String :=
  join s.current (expandHome s p)

end ApiClient.Path
