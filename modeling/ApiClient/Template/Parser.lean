import ApiClient.Template
import ApiClient.Text.Blank
import ApiClient.Text.Split

/-!
# Reading templates

A template is written as text with tags between double braces:

* a path is the place of a value; `this` and `.` are the context itself, as a beginning too;
* `#if`, `#unless`, `#each` and `#with` open a block of the path that follows, `else` parts it, and
  the same word after a slash closes it;
* `!` opens a comment.

A line that holds but one tag of a block or a comment, blanks apart, leaves no line in the text.

`Template.parse` reads a template in three steps: the text is split into pieces, pieces that stand
alone take their lines with them, and pieces are nested into parts.
-/

namespace ApiClient.Template

/-- A piece of a written template. -/
inductive Piece where
  | text (cs : List Char)
  | value (path : Path)
  | opening (word : String) (path : Path)
  | otherwise
  | closing (word : String)
  | comment

/-- A piece that leaves no line of its own. -/
def Piece.isSilent : Piece → Bool
  | .opening _ _ | .otherwise | .closing _ | .comment => true
  | _ => false

/-! ## Pieces -/

/-- A character of a key. -/
def isKeyChar (c : Char) : Bool :=
  !Text.isBlank c && !"\x7b\x7d()[]\"'#/!&=|~^\x60<>;,@%*+\\".toList.contains c

/-- A path, as a text between dots. -/
def path? (cs : List Char) : Option Path :=
  let keys := Text.splitOn '.' cs
  if cs = ['.'] then some []
  else if keys.all fun key => !key.isEmpty && key.all isKeyChar then
    match keys.map String.ofList with
    | "this" :: keys => some keys
    | keys => some keys
  else none

/-- The words of a tag. -/
def words (cs : List Char) : List (List Char) :=
  (Text.splitOn ' ' (cs.map fun c => if Text.isBlank c then ' ' else c)).filter (!·.isEmpty)

/-- The words that open a block. -/
def blockWords : List String := ["if", "unless", "each", "with"]

/-- The piece of a tag, from the text between its braces. -/
def tagPiece? (cs : List Char) : Option Piece :=
  match cs with
  | '!' :: _ => some .comment
  | '#' :: cs =>
    match words cs with
    | [word, path] =>
      if blockWords.contains (String.ofList word) then
        (path? path).map (.opening (String.ofList word))
      else none
    | _ => none
  | '/' :: cs =>
    match words cs with
    | [word] => some (.closing (String.ofList word))
    | _ => none
  | cs =>
    match words cs with
    | [word] => if word = "else".toList then some .otherwise else (path? word).map .value
    | _ => none

/-- The text before a mark and the text after it. -/
def splitAt? (mark : List Char) : List Char → Option (List Char × List Char)
  | [] => if mark.isEmpty then some ([], []) else none
  | c :: cs =>
    match Text.dropPrefix? mark (c :: cs) with
    | some rest => some ([], rest)
    | none => (splitAt? mark cs).map fun (before, rest) => (c :: before, rest)

/-- The tag at the beginning of a text, after its opening braces, and the text after it. -/
def readTag (cs : List Char) : Option (Piece × List Char) :=
  match cs with
  | '!' :: '-' :: '-' :: cs => do
    let (_, rest) ← splitAt? "--\x7d\x7d".toList cs
    some (.comment, rest)
  | '\x7b' :: cs => do
    let (tag, rest) ← splitAt? "\x7d\x7d\x7d".toList cs
    match words tag with
    | [word] => (path? word).map fun path => (.value path, rest)
    | _ => none
  | cs => do
    let (tag, rest) ← splitAt? "\x7d\x7d".toList cs
    (tagPiece? tag).map (·, rest)

/-- The pieces of a text, a text before and after every tag. A tag takes a character at least,
which bounds the fuel. -/
def pieces? : Nat → List Char → Option (List Char × List Piece)
  | 0, _ => none
  | fuel + 1, cs =>
    match splitAt? "\x7b\x7b".toList cs with
    | none => some (cs, [])
    | some (before, cs) => do
      let (tag, rest) ← readTag cs
      let (after, more) ← pieces? fuel rest
      some (before, tag :: .text after :: more)

/-! ## Lines -/

/-- A blank inside a line. -/
def isInlineBlank (c : Char) : Bool :=
  c == ' ' || c == '\t'

/-- The text after the end of a line that holds blanks only. -/
def dropLine? (cs : List Char) : Option (List Char) :=
  match cs.dropWhile isInlineBlank with
  | '\n' :: rest | '\r' :: '\n' :: rest => some rest
  | _ => none

/-- The text up to the beginning of a last line that holds blanks only. -/
def dropIndent? (atStart : Bool) (cs : List Char) : Option (List Char) :=
  match cs.reverse.dropWhile isInlineBlank with
  | [] => if atStart then some [] else none
  | '\n' :: rest => some ('\n' :: rest).reverse
  | _ => none

/-- A text ends the line that it begins, or the template. -/
def endsLine? (more : List Piece) (cs : List Char) : Option (List Char) :=
  match dropLine? cs with
  | some rest => some rest
  | none => if more.isEmpty && cs.all isInlineBlank then some [] else none

/-- The pieces after a text, which comes first; those that stand alone take their lines with them.
`atStart` tells that the text begins a line. After the text, tags and texts take turns. -/
def dropLines (atStart : Bool) (before : List Char) : List Piece → List Piece
  | tag :: .text after :: more =>
    match tag.isSilent, dropIndent? atStart before, endsLine? more after with
    | true, some before, some after => .text before :: tag :: dropLines true after more
    | _, _, _ => .text before :: tag :: dropLines false after more
  | more => .text before :: more

/-! ## Nesting -/

/-- A block that is open: its word and path, the parts before it, and those of its first branch if
it is parted already. -/
structure OpenBlock where
  word : String
  path : Path
  before : List Part
  first : Option (List Part)

/-- The part of a closed block, from the parts of its last branch. -/
def OpenBlock.part (b : OpenBlock) (last : List Part) : Part :=
  let body := b.first.getD last
  let otherwise := if b.first.isSome then some last else none
  match b.word with
  | "if" => .choice b.path body (otherwise.getD [])
  | "unless" => .choice b.path (otherwise.getD []) body
  | "each" => .each b.path body otherwise
  | _ => .within b.path body otherwise

/-- The parts of pieces, given the open blocks, the innermost first, and the parts read so far. -/
def nest : List OpenBlock → List Part → List Piece → Option Template
  | [], parts, [] => some parts
  | _ :: _, _, [] => none
  | blocks, parts, .text cs :: more =>
    if cs.isEmpty then nest blocks parts more
    else nest blocks (parts ++ [.text (String.ofList cs)]) more
  | blocks, parts, .value path :: more => nest blocks (parts ++ [.value path]) more
  | blocks, parts, .comment :: more => nest blocks parts more
  | blocks, parts, .opening word path :: more =>
    nest (⟨word, path, parts, none⟩ :: blocks) [] more
  | [], _, .otherwise :: _ => none
  | b :: blocks, parts, .otherwise :: more =>
    if b.first.isSome then none
    else nest ({ b with first := some parts } :: blocks) [] more
  | [], _, .closing _ :: _ => none
  | b :: blocks, parts, .closing word :: more =>
    if b.word = word then nest blocks (b.before ++ [b.part parts]) more else none

/-- Reads a template. -/
def parse (source : String) : Except Fault Template :=
  let cs := source.toList
  match (pieces? (cs.length + 1) cs).bind fun (first, more) =>
      nest [] [] (dropLines true first more) with
  | some t => .ok t
  | none => .error .malformed

end ApiClient.Template
