/-!
# TOML strings

A string stands between double quotes, with escapes, or between single quotes, as it is. Between
three quotes of a kind it may have several lines; a line break right after the opening quotes does
not belong to it, and a backslash before a line break drops all blanks up to the next character.

`readString?` reads a string and returns the text after it.
-/

namespace ApiClient.Toml

/-- A character that may stand in a comment or a string on one line. -/
def isPlain (c : Char) : Bool :=
  c = '\t' || (0x20 ≤ c.toNat && c.toNat != 0x7f)

/-- The value of a hexadecimal digit. -/
def hexValue? (c : Char) : Option Nat :=
  if c.isDigit then some (c.toNat - '0'.toNat)
  else if 'a' ≤ c ∧ c ≤ 'f' then some (c.toNat - 'a'.toNat + 10)
  else if 'A' ≤ c ∧ c ≤ 'F' then some (c.toNat - 'A'.toNat + 10)
  else none

/-- The character of a code point in hexadecimal digits. -/
def codePoint? (digits : List Char) : Option Char := do
  let n ← digits.foldlM (fun n c => (hexValue? c).map (n * 16 + ·)) 0
  if h : n.isValidChar then some (Char.ofNatAux n h) else none

/-- An escape after its backslash: its character and the text after it. -/
def readEscape? : List Char → Option (Char × List Char)
  | 'b' :: cs => some ('\x08', cs)
  | 't' :: cs => some ('\t', cs)
  | 'n' :: cs => some ('\n', cs)
  | 'f' :: cs => some ('\x0c', cs)
  | 'r' :: cs => some ('\r', cs)
  | 'e' :: cs => some ('\x1b', cs)
  | '"' :: cs => some ('"', cs)
  | '\\' :: cs => some ('\\', cs)
  | 'x' :: cs => coded 2 cs
  | 'u' :: cs => coded 4 cs
  | 'U' :: cs => coded 8 cs
  | _ => none
where
  /-- A code point of a number of digits. -/
  coded (count : Nat) (cs : List Char) : Option (Char × List Char) :=
    if cs.length < count then none
    else (codePoint? (cs.take count)).map fun c => (c, cs.drop count)

/-! ## Strings on one line -/

/-- The rest of a string with escapes, and the text after it; every character takes one unit of
fuel. -/
def readBasic : Nat → List Char → Option (List Char × List Char)
  | 0, _ | _, [] => none
  | _ + 1, '"' :: cs => some ([], cs)
  | fuel + 1, '\\' :: cs => do
    let (c, cs) ← readEscape? cs
    let (s, cs) ← readBasic fuel cs
    some (c :: s, cs)
  | fuel + 1, c :: cs => do
    guard (isPlain c)
    let (s, cs) ← readBasic fuel cs
    some (c :: s, cs)

/-- The rest of a string without escapes, and the text after it. -/
def readLiteral : List Char → Option (List Char × List Char)
  | [] => none
  | '\'' :: cs => some ([], cs)
  | c :: cs => do
    guard (isPlain c)
    let (s, cs) ← readLiteral cs
    some (c :: s, cs)

/-! ## Strings on several lines -/

/-- The text after a line break, if there is one. -/
def dropLineBreak? : List Char → Option (List Char)
  | '\n' :: cs | '\r' :: '\n' :: cs => some cs
  | _ => none

/-- The end of a string of several lines, from its first closing quote on: up to two quotes may
belong to the string. -/
def readClosing? (quote : Char) (cs : List Char) : Option (List Char × List Char) :=
  let quotes := cs.takeWhile (· == quote)
  if 3 ≤ quotes.length then
    let own := min (quotes.length - 3) 2
    some (List.replicate own quote, cs.drop (own + 3))
  else none

/-- The text after a backslash at the end of a line: the blanks up to the next character are
dropped. -/
def dropContinuation? (cs : List Char) : Option (List Char) :=
  let line := cs.dropWhile fun c => c = ' ' || c = '\t'
  (dropLineBreak? line).map fun _ => blanks line
where
  /-- A text without its leading blanks and line breaks. -/
  blanks : List Char → List Char
    | ' ' :: cs | '\t' :: cs | '\n' :: cs | '\r' :: '\n' :: cs => blanks cs
    | cs => cs

/-- The rest of a string with escapes on several lines, and the text after it; every character
takes one unit of fuel. -/
def readBasicLines : Nat → List Char → Option (List Char × List Char)
  | 0, _ | _, [] => none
  | fuel + 1, '\\' :: cs =>
    match dropContinuation? cs with
    | some cs => readBasicLines fuel cs
    | none => do
      let (c, cs) ← readEscape? cs
      let (s, cs) ← readBasicLines fuel cs
      some (c :: s, cs)
  | fuel + 1, c :: cs =>
    match if c = '"' then readClosing? '"' (c :: cs) else none with
    | some closing => some closing
    | none => do
      guard (isPlain c || (dropLineBreak? (c :: cs)).isSome)
      let (s, cs) ← readBasicLines fuel cs
      some (c :: s, cs)

/-- The rest of a string without escapes on several lines, and the text after it. -/
def readLiteralLines : List Char → Option (List Char × List Char)
  | [] => none
  | c :: cs =>
    match if c = '\'' then readClosing? '\'' (c :: cs) else none with
    | some closing => some closing
    | none => do
      guard (isPlain c || (dropLineBreak? (c :: cs)).isSome)
      let (s, cs) ← readLiteralLines cs
      some (c :: s, cs)

/-! ## All strings -/

/-- A string on one line and the text after it. -/
def readLine? : List Char → Option (String × List Char)
  | '"' :: cs => (readBasic (cs.length + 1) cs).map fun (s, cs) => (String.ofList s, cs)
  | '\'' :: cs => (readLiteral cs).map fun (s, cs) => (String.ofList s, cs)
  | _ => none

/-- A string and the text after it. -/
def readString? : List Char → Option (String × List Char)
  | '"' :: '"' :: '"' :: cs =>
    let cs := (dropLineBreak? cs).getD cs
    (readBasicLines (cs.length + 1) cs).map fun (s, cs) => (String.ofList s, cs)
  | '\'' :: '\'' :: '\'' :: cs =>
    let cs := (dropLineBreak? cs).getD cs
    (readLiteralLines cs).map fun (s, cs) => (String.ofList s, cs)
  | cs => readLine? cs

end ApiClient.Toml
