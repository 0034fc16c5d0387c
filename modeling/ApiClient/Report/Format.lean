import ApiClient.Json.Printer
import ApiClient.Options

/-!
# Forms of reports

A report is a JSON value. `OutputFormat.render` writes it in one of three forms: indented JSON, JSON
on one line, and a form for reading at a terminal.

The last one has the layout of indented JSON, with sorted keys, without escapes in its strings, and
in colour if colours are asked for.

* `Style.paint`: a text in a style.
* `Value.writeValue`, `Value.display`: the form for reading, written line by line.
-/

namespace ApiClient

/-! ## Styles -/

/-- How a part of a report looks at a terminal. -/
inductive Style where
  | dim
  | yellow
  | cyan
  | green
  | boldBlue
  deriving DecidableEq, Repr

namespace Style

/-- The numbers by which a terminal knows a style. -/
def codes : Style → String
  | .dim => "2"
  | .yellow => "33"
  | .cyan => "36"
  | .green => "32"
  | .boldBlue => "1;34"

/-- What switches a style on. -/
def start (s : Style) : List Char :=
  '\x1b' :: '[' :: s.codes.toList ++ ['m']

/-- What switches every style off. -/
def reset : List Char :=
  ['\x1b', '[', '0', 'm']

/-- A text with the style switched on again wherever the text itself switches it off. -/
def restart (s : Style) : List Char → List Char
  | '\x1b' :: '[' :: '0' :: 'm' :: cs => reset ++ s.start ++ restart s cs
  | c :: cs => c :: restart s cs
  | [] => []

/-- A text in a style, if `colored`. -/
def paint (s : Style) (colored : Bool) (text : String) : String :=
  if colored then String.ofList (s.start ++ restart s text.toList ++ reset) else text

end Style

/-! ## The form for reading -/

namespace Json.Value

/-- A text between double quotes, which are not in its style. -/
def paintQuoted (s : Style) (colored : Bool) (text : String) : String :=
  "\"" ++ s.paint colored text ++ "\""

/-- Ends the line of an entry, with a comma unless it is the last one (`close_entry`). -/
def closeEntry (out : String) (last : Bool) : String :=
  (if last then out else out ++ ",") ++ "\n"

mutual
/-- Writes a value that stands on a level behind a text (`write_value`). -/
def writeValue (colored : Bool) (out : String) (level : Nat) : Value → String
  | .null => out ++ Style.dim.paint colored "null"
  | .bool b => out ++ Style.yellow.paint colored (if b then "true" else "false")
  | .number n => out ++ Style.cyan.paint colored n.display
  | .string s => out ++ paintQuoted .green colored s
  | .array items =>
    if items.isEmpty then out ++ "[]"
    else writeItems colored (out ++ "[\n") (level + 1) items ++ indentation level ++ "]"
  | .object members =>
    if members.isEmpty then out ++ "\x7b\x7d"
    else
      writeMembers colored (out ++ "\x7b\n") (level + 1) members ++ indentation level ++ "\x7d"
/-- Writes the items of an array, each on a line of its own. -/
def writeItems (colored : Bool) (out : String) (level : Nat) : List Value → String
  | [] => out
  | v :: vs =>
    let out := writeValue colored (out ++ indentation level) level v
    writeItems colored (closeEntry out vs.isEmpty) level vs
/-- Writes the members of an object, each on a line of its own. -/
def writeMembers (colored : Bool) (out : String) (level : Nat) : List (String × Value) → String
  | [] => out
  | (k, v) :: ms =>
    let out := out ++ indentation level ++ paintQuoted .boldBlue colored k ++ ": "
    writeMembers colored (closeEntry (writeValue colored out level v) ms.isEmpty) level ms
end

/-- The form of a value for reading, with sorted keys. -/
def display (colored : Bool) (v : Value) : String :=
  writeValue colored "" 0 v.canonical

end Json.Value

/-- A value in one of the forms of reports (`format_output`). -/
def OutputFormat.render (colored : Bool) (v : Json.Value) : OutputFormat → String
  | .json => v.pretty
  | .text => v.compact
  | .pretty => v.display colored

end ApiClient
