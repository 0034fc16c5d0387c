import ApiClient.Text.Blank
import ApiClient.TypeExpr

/-!
# Reading type expressions

The grammar, with blanks allowed before and after every token:

* an expression is a name, then optional arguments, then any number of suffixes;
* arguments are expressions with commas between them, between `<` and `>`;
* a suffix is `[` `]`, an array of what stands before it, or `?`, its nullable type.

`TypeExpr.parse` reads a whole text; `TypeExpr.Fault` says where and why a text is refused. A fault
that names a place holds the text from that place on, and `Fault.reason` turns it into an offset in
bytes.
-/

namespace ApiClient.TypeExpr

/-- Why a text is not a type expression. -/
inductive Fault where
  /-- Text is left after the expression. -/
  | trailing (rest : List Char)
  /-- A name should stand at the beginning of the rest. -/
  | missingName (rest : List Char)
  /-- A name has an empty segment. -/
  | malformedName (name : String)
  /-- An argument is followed by neither a comma nor the closing bracket. -/
  | openArguments
  /-- An opening square bracket is not closed at once. -/
  | openArray

/-- The wording of a fault found in `input`. -/
def Fault.reason (input : List Char) : Fault → String
  | .trailing [] | .missingName [] => "unexpected end of input"
  | .trailing (c :: rest) =>
    "unexpected '" ++ c.toString ++ "' at offset " ++ toString (offset (c :: rest))
  | .missingName (c :: rest) =>
    "expected a type name at offset " ++ toString (offset (c :: rest)) ++ ", found '" ++ c.toString
      ++ "'"
  | .malformedName name => "malformed qualified name '" ++ name ++ "'"
  | .openArguments => "expected ',' or '>' in generic argument list"
  | .openArray => "expected ']' after '['"
where
  /-- The number of bytes before a rest of the input. -/
  offset (rest : List Char) : Nat := Text.byteLength input - Text.byteLength rest

/-! ## Tokens -/

/-- The text after the character `c`, blanks before it apart (`eat`). -/
def eat (c : Char) (cs : List Char) : Option (List Char) :=
  match Text.dropBlanks cs with
  | [] => none
  | d :: rest => if d = c then some rest else none

/-- The longest run of name characters, blanks before it apart, and the text after it (`name` of
`Parser`). -/
def readName (cs : List Char) : Except Fault (String × List Char) :=
  let cs := Text.dropBlanks cs
  let name := cs.takeWhile isNameChar
  if name.isEmpty then .error (.missingName cs)
  else if hasSegments name then .ok (String.ofList name, cs.dropWhile isNameChar)
  else .error (.malformedName (String.ofList name))

/-! ## Expressions -/

/-- The suffixes after `e`; every suffix takes one unit of fuel (the loop of `expr`). -/
def readSuffixes : Nat → TypeExpr → List Char → Except Fault (TypeExpr × List Char)
  | 0, e, cs => .ok (e, cs)
  | fuel + 1, e, cs =>
    match eat '[' cs with
    | some cs =>
      match eat ']' cs with
      | some cs => readSuffixes fuel (.array e) cs
      | none => .error .openArray
    | none =>
      match eat '?' cs with
      | some cs => readSuffixes fuel (nullable e) cs
      | none => .ok (e, cs)

mutual
/-- An expression and the text after it; every nesting level and every argument takes one unit of
fuel (`expr`). -/
def readExpr : Nat → List Char → Except Fault (TypeExpr × List Char)
  | 0, cs => .error (.missingName cs)
  | fuel + 1, cs =>
    match readName cs with
    | .error fault => .error fault
    | .ok (name, cs) =>
      match eat '<' cs with
      | none => readSuffixes (fuel + 1) (.named name []) cs
      | some cs =>
        match readArguments fuel cs with
        | .error fault => .error fault
        | .ok (args, cs) => readSuffixes (fuel + 1) (.named name args) cs
/-- The arguments up to the closing bracket and the text after it. -/
def readArguments : Nat → List Char → Except Fault (List TypeExpr × List Char)
  | 0, cs => .error (.missingName cs)
  | fuel + 1, cs =>
    match readExpr fuel cs with
    | .error fault => .error fault
    | .ok (arg, cs) =>
      match eat ',' cs with
      | some cs =>
        match readArguments fuel cs with
        | .error fault => .error fault
        | .ok (args, cs) => .ok (arg :: args, cs)
      | none =>
        match eat '>' cs with
        | some cs => .ok ([arg], cs)
        | none => .error .openArguments
end

/-- Reads a whole text. A nesting level or a suffix takes a character at least, an argument two,
so the fuel is never used up. -/
def parseChars (cs : List Char) : Except Fault TypeExpr :=
  match readExpr (2 * cs.length + 2) cs with
  | .error fault => .error fault
  | .ok (e, rest) =>
    match Text.dropBlanks rest with
    | [] => .ok e
    | rest => .error (.trailing rest)

/-- Reads a type expression (`parse` of `TypeExpr`). -/
def parse (input : String) : Except Fault TypeExpr :=
  parseChars input.toList

end ApiClient.TypeExpr
