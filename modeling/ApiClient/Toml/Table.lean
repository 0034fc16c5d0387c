/-!
# TOML tables

A document fills its root table line by line. A table remembers how it came about, since that
decides what may still be added to it.

* `Table.insert`: a value under a dotted key.
* `Table.within`: a change to the table that a header names.
* `Table.declare`, `Table.extend`: the table of a header; a further table of a list of tables.

Each of them is refused where it would define something twice.
-/

namespace ApiClient.Toml

/-- A written value. Numbers, moments and inline tables are told apart, but not kept. -/
inductive Value where
  | text (s : String)
  | bool (b : Bool)
  | number
  | moment
  | list (items : List Value)
  | table

/-- The text that a value is. -/
def Value.text? : Value → Option String
  | .text s => some s
  | _ => none

/-- How a table came about. -/
inductive Origin where
  /-- By the header of a table inside it. -/
  | implied
  /-- By its own header. -/
  | header
  /-- By a dotted key. -/
  | dotted
  deriving DecidableEq, Repr

/-- What a key of a table stands for. -/
inductive Entry where
  | value (v : Value)
  | table (origin : Origin) (entries : List (String × Entry))
  | tables (items : List (List (String × Entry)))

/-- The entries of a table in the order in which their keys came first. -/
abbrev Table := List (String × Entry)

namespace Table

/-- The entry of a key. -/
def get? (t : Table) (key : String) : Option Entry :=
  (t.find? (·.1 == key)).map (·.2)

/-- Adds an entry under a new key. -/
def add (t : Table) (key : String) (e : Entry) : Table :=
  t ++ [(key, e)]

/-- Changes the entry of a key. -/
def replace (t : Table) (key : String) (e : Entry) : Table :=
  t.map fun old => if old.1 = key then (key, e) else old

/-- Adds a value under a dotted key. The key may pass through tables of other dotted keys and
through implied ones, but what it adds to must be of its own kind. -/
def insert : List String → Value → Table → Option Table
  | [], _, _ => none
  | [key], v, t => if (t.get? key).isSome then none else some (t.add key (.value v))
  | key :: keys, v, t =>
    match t.get? key with
    | none => (insert keys v []).map fun inner => t.add key (.table .dotted inner)
    | some (.table .dotted inner) =>
      (insert keys v inner).map fun inner => t.replace key (.table .dotted inner)
    | some (.table .implied inner) =>
      if keys.length = 1 then none
      else (insert keys v inner).map fun inner => t.replace key (.table .implied inner)
    | _ => none

/-- Changes the table of a header's keys; of a list of tables, the last one. -/
def within (change : Table → Option Table) : List String → Table → Option Table
  | [], t => change t
  | key :: keys, t =>
    match t.get? key with
    | none => (within change keys []).map fun inner => t.add key (.table .implied inner)
    | some (.table origin inner) =>
      (within change keys inner).map fun inner => t.replace key (.table origin inner)
    | some (.tables items) =>
      match items.getLast? with
      | none => none
      | some inner =>
        (within change keys inner).map fun inner =>
          t.replace key (.tables (items.dropLast ++ [inner]))
    | some (.value _) => none

/-- Defines the table of a header. -/
def declare (key : String) (t : Table) : Option Table :=
  match t.get? key with
  | none => some (t.add key (.table .header []))
  | some (.table .implied inner) => some (t.replace key (.table .header inner))
  | _ => none

/-- Defines a further table of a list of tables. -/
def extend (key : String) (t : Table) : Option Table :=
  match t.get? key with
  | none => some (t.add key (.tables [[]]))
  | some (.tables items) => some (t.replace key (.tables (items ++ [[]])))
  | _ => none

end Table

end ApiClient.Toml
