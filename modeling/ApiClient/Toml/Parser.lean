import ApiClient.Toml.Quoted
import ApiClient.Toml.Scalar
import ApiClient.Toml.Table

/-!
# Reading TOML

A document is a list of lines: a value under a key, the header of a table, a comment, or nothing.
Lists and inline tables may go over several lines.

* `readValue`: a value; `readKey`: a dotted key.
* `readLines`: the lines of a document, which fill its root table.
* `Toml.parse`: reads a whole document; there is no answer for a text that is none.
-/

namespace ApiClient.Toml

/-! ## Blanks -/

/-- A blank inside a line. -/
def isSpace (c : Char) : Bool :=
  c = ' ' || c = '\t'

/-- A text without leading blanks. -/
def dropSpaces (cs : List Char) : List Char :=
  cs.dropWhile isSpace

/-- A text without leading blanks, line breaks and comments. -/
def dropGap (inComment : Bool) : List Char → Option (List Char)
  | [] => some []
  | '\n' :: cs | '\r' :: '\n' :: cs => dropGap false cs
  | c :: cs =>
    if inComment then if isPlain c then dropGap true cs else none
    else if isSpace c then dropGap false cs
    else if c = '#' then dropGap true cs
    else some (c :: cs)

/-- Nothing but a comment is left on the line. -/
def endsLine (cs : List Char) : Bool :=
  match dropSpaces cs with
  | [] | '#' :: _ | '\n' :: _ | '\r' :: '\n' :: _ => true
  | _ => false

/-! ## Keys -/

/-- A character of a key without quotes. -/
def isBare (c : Char) : Bool :=
  c.isAlphanum || c = '_' || c = '-'

/-- One part of a key and the text after it. -/
def readPart (cs : List Char) : Option (String × List Char) :=
  match cs with
  | '"' :: _ | '\'' :: _ => readLine? cs
  | cs =>
    let name := cs.takeWhile isBare
    if name.isEmpty then none else some (String.ofList name, cs.dropWhile isBare)

/-- A dotted key and the text after it; every part takes one unit of fuel. -/
def readKey : Nat → List Char → Option (List String × List Char)
  | 0, _ => none
  | fuel + 1, cs => do
    let (part, cs) ← readPart (dropSpaces cs)
    match dropSpaces cs with
    | '.' :: cs => do
      let (parts, cs) ← readKey fuel cs
      some (part :: parts, cs)
    | cs => some ([part], cs)

/-! ## Values -/

/-- A character of a word. -/
def isWordChar (c : Char) : Bool :=
  isBare c || c = '+' || c = '.' || c = ':'

/-- A word and the text after it. A blank may part the date and the time of a moment. -/
def readWord (cs : List Char) : List Char × List Char :=
  let word := cs.takeWhile isWordChar
  let rest := cs.dropWhile isWordChar
  match dropDate? word, rest with
  | some [], ' ' :: c :: more =>
    if c.isDigit then
      (word ++ ' ' :: (c :: more).takeWhile isWordChar, (c :: more).dropWhile isWordChar)
    else (word, rest)
  | _, _ => (word, rest)

/-- The value of a word. -/
def wordValue? (cs : List Char) : Option Value :=
  if cs = "true".toList then some (.bool true)
  else if cs = "false".toList then some (.bool false)
  else if isNumber cs then some .number
  else if isMoment cs then some .moment
  else none

/-- The greatest number of lists and inline tables around a value. -/
def maxDepth : Nat := 80

mutual
/-- A value and the text after it, inside of which `depth` more lists and inline tables may be
opened; every value takes one unit of fuel. -/
def readValue : Nat → Nat → List Char → Option (Value × List Char)
  | 0, _, _ => none
  | fuel + 1, depth, cs =>
    match cs with
    | '"' :: _ | '\'' :: _ => (readString? cs).map fun (s, cs) => (.text s, cs)
    | '[' :: cs =>
      if depth = 0 then none
      else (readItems fuel (depth - 1) cs).map fun (items, cs) => (.list items, cs)
    | '\x7b' :: cs =>
      if depth = 0 then none
      else (readMembers fuel (depth - 1) [] cs).map fun (_, cs) => (.table, cs)
    | cs =>
      let (word, cs) := readWord cs
      (wordValue? word).map fun v => (v, cs)
/-- The items of a list up to its end, and the text after it. -/
def readItems : Nat → Nat → List Char → Option (List Value × List Char)
  | 0, _, _ => none
  | fuel + 1, depth, cs => do
    match ← dropGap false cs with
    | ']' :: cs => some ([], cs)
    | cs => do
      let (v, cs) ← readValue fuel depth cs
      match ← dropGap false cs with
      | ',' :: cs => do
        let (vs, cs) ← readItems fuel depth cs
        some (v :: vs, cs)
      | ']' :: cs => some ([v], cs)
      | _ => none
/-- The members of an inline table up to its end, added to those before them, and the text after
it. -/
def readMembers : Nat → Nat → Table → List Char → Option (Table × List Char)
  | 0, _, _, _ => none
  | fuel + 1, depth, t, cs => do
    match ← dropGap false cs with
    | '\x7d' :: cs => some (t, cs)
    | cs => do
      let (key, cs) ← readKey cs.length cs
      let '=' :: cs := dropSpaces cs | none
      let (v, cs) ← readValue fuel depth (dropSpaces cs)
      let t ← t.insert key v
      match ← dropGap false cs with
      | ',' :: cs => readMembers fuel depth t cs
      | '\x7d' :: cs => some (t, cs)
      | _ => none
end

/-! ## Documents -/

/-- The keys of a header up to its closing brackets, and the text after it. -/
def readHeader (closing : List Char) (cs : List Char) : Option (List String × List Char) := do
  let (keys, cs) ← readKey (cs.length + 1) cs
  let cs := dropSpaces cs
  if cs.take closing.length = closing then some (keys, cs.drop closing.length) else none

/-- Defines what a header names, with `define` for its last key. -/
def defineHeader (define : String → Table → Option Table) (keys : List String) (root : Table) :
    Option Table :=
  match keys.getLast? with
  | none => none
  | some key => root.within (define key) keys.dropLast

/-- The lines of a document, which fill `root`; `header` names the table to which values are
added. Every line takes one unit of fuel. -/
def readLines : Nat → List String → Table → List Char → Option Table
  | 0, _, _, _ => none
  | fuel + 1, header, root, cs => do
    match ← dropGap false cs with
    | [] => some root
    | '[' :: '[' :: cs => do
      let (keys, cs) ← readHeader [']', ']'] cs
      guard (endsLine cs)
      readLines fuel keys (← defineHeader Table.extend keys root) cs
    | '[' :: cs => do
      let (keys, cs) ← readHeader [']'] cs
      guard (endsLine cs)
      readLines fuel keys (← defineHeader Table.declare keys root) cs
    | cs => do
      let (key, cs) ← readKey (cs.length + 1) cs
      let '=' :: cs := dropSpaces cs | none
      let (v, cs) ← readValue (cs.length + 1) maxDepth (dropSpaces cs)
      guard (endsLine cs)
      readLines fuel header (← root.within (Table.insert key v) header) cs

/-- The root table of a document. A byte order mark may stand before it. -/
def parse (text : String) : Option Table :=
  let cs := match text.toList with
    | '\ufeff' :: cs => cs
    | cs => cs
  readLines (cs.length + 1) [] [] cs

end ApiClient.Toml
