/-!
# String literals of generated code

`quote` writes a text as a literal between single quotes. Quotes, backslashes and line breaks are
escaped, so the literal ends at its own closing quote and on its own line.
-/

namespace ApiClient.TypeScript

/-- One character of a literal. -/
def escape (c : Char) : List Char :=
  match c with
  | '\\' => ['\\', '\\']
  | '\'' => ['\\', '\'']
  | '\n' => ['\\', 'n']
  | '\r' => ['\\', 'r']
  | c => [c]

/-- A literal between single quotes (`quote`). -/
def quote (s : String) : String :=
  String.ofList ('\'' :: s.toList.flatMap escape ++ ['\''])

end ApiClient.TypeScript
