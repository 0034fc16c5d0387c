import ApiClient.Text.Alphanumeric
import ApiClient.Text.Split

/-!
# Type expressions

A type expression names a type with its arguments, or is an array of another expression.

* `TypeExpr`: the tree; `T?` is the one-argument `System.Nullable`.
* `TypeExpr.display`: the printed form, `Name<A, B>` and `T[]`.
* `isName`: the well-formed qualified names, non-empty segments of name characters with a dot
  between them.
-/

namespace ApiClient

/-- A type as it is written, before its names are looked up. -/
inductive TypeExpr where
  /-- A qualified name with its arguments, none for a plain type. -/
  | named (name : String) (args : List TypeExpr)
  /-- An array of the element type. -/
  | array (element : TypeExpr)

namespace TypeExpr

/-- The name that `T?` stands for. -/
def nullableName : String := "System.Nullable"

/-- `T?` is `T` as the only argument of the nullable type. -/
def nullable (e : TypeExpr) : TypeExpr :=
  .named nullableName [e]

/-! ## Names -/

/-- The characters of a qualified name: letters and numbers of any script, the dot between its
segments, and the marks of generic and nested names. -/
def isNameChar (c : Char) : Bool :=
  Text.isAlphanumeric c || c == '_' || c == '.' || c == '\u0060' || c == '+'

/-- No segment between the dots is empty. -/
def hasSegments (cs : List Char) : Bool :=
  (Text.splitOn '.' cs).all (!·.isEmpty)

/-- A well-formed qualified name. -/
def isName (s : String) : Bool :=
  s.toList.all isNameChar && hasSegments s.toList

mutual
/-- Every name in the expression is well formed. -/
def wellNamed : TypeExpr → Bool
  | .named name args => isName name && allWellNamed args
  | .array element => wellNamed element
/-- Every name in the expressions is well formed. -/
def allWellNamed : List TypeExpr → Bool
  | [] => true
  | e :: es => wellNamed e && allWellNamed es
end

/-! ## Printing -/

mutual
/-- The printed form as characters. -/
def chars : TypeExpr → List Char
  | .named name [] => name.toList
  | .named name (a :: as) => name.toList ++ '<' :: chars a ++ argumentChars as ++ ['>']
  | .array element => chars element ++ ['[', ']']
/-- The arguments after the first one, a comma and a space before each. -/
def argumentChars : List TypeExpr → List Char
  | [] => []
  | a :: as => ',' :: ' ' :: chars a ++ argumentChars as
end

/-- The printed form (`fmt` of `TypeExpr`). -/
def display (e : TypeExpr) : String :=
  String.ofList e.chars

end TypeExpr

end ApiClient
