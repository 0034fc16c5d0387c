import ApiClient.Output.Fault
import ApiClient.Path

/-!
# Paths of generated files

A `FilePath` is a relative path that stays below the directory that it is resolved in.

* `FilePath.parse`: reads a path; backslashes part names too, and leading steps that stay where they
  are are dropped.
* `FilePath.segments`: the names that count.
* `FilePath.diskPath`: the path as seen from a directory.
-/

namespace ApiClient

/-- The text is relative, without a drive, without leading steps that stay where they are, and with
slashes alone between its names. -/
def isRelativeText (cs : List Char) : Bool :=
  !cs.isEmpty && cs.head? != some '/' && !cs.contains ':' && !cs.contains '\\' &&
    Path.dropHere cs == cs

/-- No step leads to a parent. -/
def hasNoParent (cs : List Char) : Bool :=
  (Text.splitOn '/' cs).all (· != ['.', '.'])

/-- A relative path that never leads to a parent. -/
structure FilePath where
  text : String
  relative : isRelativeText text.toList = true
  noParent : hasNoParent text.toList = true
  deriving DecidableEq

namespace FilePath

/-- Reads a path (`new` of `FilePath`). -/
def parse (path : String) : Except OutputFault FilePath :=
  let slashed := Path.forwardSlashes path
  let text := String.ofList (Path.dropHere slashed)
  if relative : isRelativeText text.toList then
    if noParent : hasNoParent text.toList then .ok ⟨text, relative, noParent⟩
    else .error (.invalidComponent (String.ofList slashed))
  else .error (.invalidPath (String.ofList slashed))

/-- The names that say something. -/
def segments (p : FilePath) : List String :=
  ((Text.splitOn '/' p.text.toList).filter (!Path.isIdle ·)).map String.ofList

/-- The entry of a directory that the path passes through (`top_level`). -/
def topLevel (p : FilePath) : String :=
  p.segments.head?.getD p.text

/-- The path as seen from a directory (`to_disk_path`). -/
def diskPath (directory : String) (p : FilePath) : String :=
  p.segments.foldl Path.join directory

end FilePath

end ApiClient
