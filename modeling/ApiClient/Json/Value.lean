import ApiClient.Number.Shortest
import ApiClient.Text.Order

/-!
# JSON values

* `Json.Value`: a value; an object keeps its members in the order in which they were given.
* `Value.canonical`: the same value with the members of every object sorted by key, the last one
  of each key.
* `Value.get?`: the member of an object by its key.
-/

namespace ApiClient.Json

/-- A number is whole or a double. -/
inductive Number where
  | whole (n : Int)
  | double (x : Binary64)

/-- The text of a number. -/
def Number.display : Number → String
  | .whole n => toString n
  | .double x => x.display

/-- A JSON value. -/
inductive Value where
  | null
  | bool (b : Bool)
  | number (n : Number)
  | string (s : String)
  | array (items : List Value)
  | object (members : List (String × Value))

namespace Value

/-- A whole number. -/
def int (n : Int) : Value :=
  .number (.whole n)

/-- A natural number. -/
def nat (n : Nat) : Value :=
  .number (.whole n)

/-- A list of texts. -/
def strings (texts : List String) : Value :=
  .array (texts.map .string)

/-- A text, or null. -/
def string? : Option String → Value
  | some s => .string s
  | none => .null

/-- The member of a key, the first one of that key. -/
def get? (key : String) : Value → Option Value
  | .object members => (members.find? (·.1 == key)).map (·.2)
  | _ => none

/-- The members sorted by key, the last one of each key. -/
def sortMembers (members : List (String × Value)) : List (String × Value) :=
  let keepLast := members.foldl (fun kept m => kept.filter (·.1 != m.1) ++ [m]) []
  Text.sortByText (·.1) keepLast

mutual
/-- The same value with sorted and distinct keys. -/
def canonical : Value → Value
  | .null => .null
  | .bool b => .bool b
  | .number n => .number n
  | .string s => .string s
  | .array items => .array (canonicalItems items)
  | .object members => .object (sortMembers (canonicalMembers members))
/-- The canonical items of an array. -/
def canonicalItems : List Value → List Value
  | [] => []
  | v :: vs => canonical v :: canonicalItems vs
/-- The members of an object with canonical values. -/
def canonicalMembers : List (String × Value) → List (String × Value)
  | [] => []
  | (k, v) :: ms => (k, canonical v) :: canonicalMembers ms
end

end Value

end ApiClient.Json
