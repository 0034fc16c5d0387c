import ApiClient.Text.Split

/-!
# External types

Types that no loaded module declares are classified by their short names: `ExternalKind.classify`
looks at the last segment of a qualified name, without the arity mark of a generic one. An
`ExternalType` holds a name with what it is classified as.
-/

namespace ApiClient

/-- The family of a library type. -/
inductive ExternalKind where
  | boolean
  /-- Integers, floating point and decimals of any width. -/
  | number
  | text
  | date
  /-- Collections of one element type. -/
  | sequence
  /-- Collections with keys. -/
  | map
  | nullable
  /-- An asynchronous result. -/
  | task
  | void
  | object
  | other
  deriving DecidableEq, Repr

namespace ExternalKind

/-- The families with short names of their own. -/
def families : List (ExternalKind × List String) :=
  [(boolean, ["Boolean", "bool"]),
   (number,
    ["Byte", "SByte", "Int16", "UInt16", "Int32", "UInt32", "Int64", "UInt64", "Single", "Double",
     "Decimal", "byte", "sbyte", "short", "ushort", "int", "uint", "long", "ulong", "float",
     "double", "decimal"]),
   (text, ["String", "Char", "Guid", "string", "char"]),
   (date, ["DateTime", "DateTimeOffset"]),
   (sequence,
    ["List", "IList", "ICollection", "IEnumerable", "IReadOnlyList", "IReadOnlyCollection",
     "HashSet", "ISet", "SortedSet", "Collection", "ReadOnlyCollection", "ObservableCollection",
     "Queue", "Stack", "LinkedList", "IQueryable", "ConcurrentBag"]),
   (map,
    ["Dictionary", "IDictionary", "IReadOnlyDictionary", "SortedDictionary", "SortedList",
     "ConcurrentDictionary", "ReadOnlyDictionary"]),
   (nullable, ["Nullable"]),
   (task, ["Task", "ValueTask"]),
   (void, ["Void", "void"]),
   (object, ["Object", "object"])]

/-- The last segment of a qualified name, up to its arity mark. -/
def shortName (name : String) : String :=
  match (Text.splitOn '.' name.toList).getLast? with
  | none => name
  | some segment => String.ofList (segment.takeWhile (· != '\u0060'))

/-- The family of a library type by its name (`classify` of `ExternalKind`). -/
def classify (name : String) : ExternalKind :=
  let short := shortName name
  match families.find? fun family => family.2.contains short with
  | some family => family.1
  | none => other

end ExternalKind

/-- A type that no loaded module declares: its name, and the family that this tells. -/
structure ExternalType where
  name : String
  kind : ExternalKind
  kind_eq : kind = ExternalKind.classify name

namespace ExternalType

/-- The type of a name (`external` of `TypeRef`). -/
def ofName (name : String) : ExternalType where
  name
  kind := ExternalKind.classify name
  kind_eq := rfl

@[simp] theorem name_ofName (name : String) : (ofName name).name = name := rfl

@[simp] theorem kind_ofName (name : String) : (ofName name).kind = ExternalKind.classify name := rfl

instance : Coe String ExternalType := ⟨ofName⟩

instance : CoeOut ExternalType String := ⟨name⟩

end ExternalType

/-- Namespaces of the framework: its two roots and what lies below them (`is_library_namespace`). -/
def isLibraryNamespace (space : String) : Bool :=
  ["System", "Microsoft"].any fun root => space == root || Text.beginsWith (root ++ ".") space

end ApiClient
