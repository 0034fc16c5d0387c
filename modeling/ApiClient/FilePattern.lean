import ApiClient.Collections.Distinct
import ApiClient.Error
import ApiClient.Text.Blank
import ApiClient.Text.Folding

/-!
# File patterns

A file pattern matches whole names up to case. `*` stands for any run of characters and `?` for any
one character, line feeds apart; all else stands for itself.

* `FilePattern.parse`: a pattern without the blanks around it; it is not empty and holds no
  separator of directories.
* `FilePattern.covers`: the names that it matches.
-/

namespace ApiClient

/-- A pattern of file names. -/
structure FilePattern where
  text : String
  deriving DecidableEq, Repr

namespace FilePattern

/-- Reads a pattern (`new` of `FilePattern`). -/
def parse (pattern : String) : Except Error FilePattern :=
  let text := Text.trim pattern
  if text.isEmpty || text.toList.any fun c => c == '/' || c == '\\' then
    .error (.argument (.filePattern pattern))
  else .ok ⟨text⟩

/-- The rests of a pattern that may take the next character: a star may take nothing. -/
def starts : List Char → List (List Char)
  | [] => [[]]
  | p :: ps => if p = '*' then (p :: ps) :: starts ps else [p :: ps]

/-- The rests of a pattern after it took a character. -/
def step (c : Char) : List Char → List (List Char)
  | [] => []
  | p :: ps =>
    if p = '*' then if c = '\n' then [] else starts (p :: ps)
    else if (if p = '?' then c ≠ '\n' else Text.sameFolded p c) then starts ps
    else []

/-- The rests of a pattern after it took a text, from those before it. Rests of one pattern differ
in length, so one of each length is enough. -/
def run (rests : List (List Char)) (text : List Char) : List (List Char) :=
  text.foldl (fun rests c => distinctBy List.length [] (rests.flatMap (step c))) rests

/-- The pattern takes the whole text. -/
def matchChars (pattern text : List Char) : Bool :=
  (run (starts pattern) text).any (·.isEmpty)

/-- The pattern matches a name (`matches`). -/
def covers (p : FilePattern) (name : String) : Bool :=
  matchChars p.text.toList name.toList

end FilePattern

end ApiClient
