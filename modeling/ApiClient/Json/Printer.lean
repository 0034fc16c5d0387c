import ApiClient.Json.Value
import ApiClient.Text.Quoted

/-!
# JSON text

* `Json.quote`: a string literal.
* `Value.compact`: the text of a value without blanks.
* `Value.pretty`: the text with one item a line, indented by two spaces a level; empty arrays and
  objects stay on one line.
-/

namespace ApiClient.Json

/-! ## String literals -/

/-- One character of a literal. -/
def escape (c : Char) : List Char :=
  match c with
  | '"' => ['\\', '"']
  | '\\' => ['\\', '\\']
  | '\n' => ['\\', 'n']
  | '\r' => ['\\', 'r']
  | '\t' => ['\\', 't']
  | '\x08' => ['\\', 'b']
  | '\x0c' => ['\\', 'f']
  | c =>
    if c.toNat < 0x20 then
      ['\\', 'u', '0', '0', Nat.digitChar (c.toNat / 16), Nat.digitChar (c.toNat % 16)]
    else [c]

/-- A string literal. -/
def quote (s : String) : String :=
  String.ofList ('"' :: s.toList.flatMap escape ++ ['"'])

/-! ## Values -/

namespace Value

mutual
/-- The text of a value without blanks. -/
def compact : Value → String
  | .null => "null"
  | .bool b => if b then "true" else "false"
  | .number n => n.display
  | .string s => quote s
  | .array items => "[" ++ ",".intercalate (compactItems items) ++ "]"
  | .object members => "\x7b" ++ ",".intercalate (compactMembers members) ++ "\x7d"
/-- The texts of the items of an array. -/
def compactItems : List Value → List String
  | [] => []
  | v :: vs => compact v :: compactItems vs
/-- The texts of the members of an object. -/
def compactMembers : List (String × Value) → List String
  | [] => []
  | (k, v) :: ms => (quote k ++ ":" ++ compact v) :: compactMembers ms
end

/-- The blanks before a line of a level. -/
def indentation (level : Nat) : String :=
  String.ofList (List.replicate (2 * level) ' ')

/-- Entries between brackets, one a line, a level deeper than the brackets; none stay on the line
of the brackets. -/
def enclose (left right : String) (level : Nat) : List String → String
  | [] => left ++ right
  | entries =>
    left ++ "\n" ++ ",\n".intercalate (entries.map (indentation (level + 1) ++ ·)) ++ "\n"
      ++ indentation level ++ right

mutual
/-- The indented text of a value that stands on a level. -/
def prettyAt (level : Nat) : Value → String
  | .null => "null"
  | .bool b => if b then "true" else "false"
  | .number n => n.display
  | .string s => quote s
  | .array items => enclose "[" "]" level (prettyItems (level + 1) items)
  | .object members => enclose "\x7b" "\x7d" level (prettyMembers (level + 1) members)
/-- The indented texts of the items of an array. -/
def prettyItems (level : Nat) : List Value → List String
  | [] => []
  | v :: vs => prettyAt level v :: prettyItems level vs
/-- The indented texts of the members of an object. -/
def prettyMembers (level : Nat) : List (String × Value) → List String
  | [] => []
  | (k, v) :: ms => (quote k ++ ": " ++ prettyAt level v) :: prettyMembers level ms
end

/-- The indented text of a value. -/
def pretty (v : Value) : String :=
  prettyAt 0 v

end Value

end ApiClient.Json
