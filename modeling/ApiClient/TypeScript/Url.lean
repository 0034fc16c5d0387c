import ApiClient.Mapping
import ApiClient.Text.Split

/-!
# Request addresses

* `combineUri`: parts of an address with one slash between them.
* `withQuery`: an address with parameters in its query, each as `queryArgument` writes it.
-/

namespace ApiClient.TypeScript

/-- An address with one more part. -/
def appendPart (uri part : String) : String :=
  let slashed := if uri.toList.getLast? = some '/' then uri else uri ++ "/"
  slashed ++ String.ofList (part.toList.dropWhile (· == '/'))

/-- The parts of an address (`combine_uri`); a part after the first one brings no slash of its
own. -/
def combineUri : List String → String
  | [] => ""
  | first :: parts => parts.foldl appendPart first

/-- A place of a template literal that holds the value of an expression. -/
def interpolate (expression : String) : String :=
  "$\x7b" ++ expression ++ "\x7d"

/-- A parameter in a query: a date in its standard form, an array as one argument an item
(`query_argument`). -/
def queryArgument (name : String) : MappedType → String
  | .date _ => name ++ "=" ++ interpolate (name ++ ".toISOString()")
  | .array _ =>
    interpolate (name ++ ".map(x => \x60" ++ name ++ "=" ++ interpolate "x" ++ "\x60).join('&')")
  | _ => name ++ "=" ++ interpolate name

/-- An address with a query, if there are parameters (`with_query`). -/
def withQuery (url : String) (parameters : List (String × MappedType)) : String :=
  match parameters with
  | [] => url
  | ps => url ++ "?" ++ "&".intercalate (ps.map fun p => queryArgument p.1 p.2)

end ApiClient.TypeScript
