import ApiClient.Error
import ApiClient.ExternalKind
import ApiClient.Marker
import ApiClient.Text.Order
import ApiClient.TypeExpr

/-!
# Declared types

A registry holds the types that the loaded modules declare. A type is identified by its place in
the registry, and no module declares two types of one qualified name.

* `TypeRef`: a type reference after look-up, to a declared type, a library type or an array.
* `TypeDef`: a declaration, the `Declaration` that names it and the `Body` that is filled in later.
* `Registry.register`, `Registry.declare`: declare a type, as a step on the registry and with the
  registry as a result.
* `Registry.update`: changes a body.
* `Registry.lookup`, `Registry.resolve`: the declared type of a name and the reference that an
  expression stands for, as seen from a module.
* `Registry.display`: the printed form of a reference.

Names in parentheses, such as (`resolve`), are those of the program's functions and types that the
definitions follow, where a reader may look for them.
-/

namespace ApiClient

/-- The place of a declared type in its registry. -/
structure TypeId where
  index : Nat
  deriving DecidableEq, Repr

/-- The printed form of an identity. -/
def TypeId.display (id : TypeId) : String :=
  "#" ++ toString id.index

/-- What kind of type a declaration declares. -/
inductive TypeKind where
  | classType
  | structType
  | interfaceType
  | enumType
  deriving DecidableEq, Repr

/-- The word for a kind in documents. -/
def TypeKind.keyword : TypeKind → String
  | .classType => "class"
  | .structType => "struct"
  | .interfaceType => "interface"
  | .enumType => "enum"

/-- All kinds by their words. -/
def TypeKind.byKeyword : List (String × TypeKind) :=
  [TypeKind.classType, .structType, .interfaceType, .enumType].map fun k => (k.keyword, k)

/-! ## References -/

/-- A type reference after look-up. -/
inductive TypeRef where
  /-- A declared type with its arguments. -/
  | declared (id : TypeId) (args : List TypeRef)
  /-- A type that no module declares, with its arguments. -/
  | external (type : ExternalType) (args : List TypeRef)
  /-- An array of the element type. -/
  | array (element : TypeRef)

namespace TypeRef

/-- The arguments of a reference; an array has none (`generic_args`). -/
def args : TypeRef → List TypeRef
  | .declared _ args | .external _ args => args
  | .array _ => []

/-- The declared type that is named, arrays apart (`declared_id`). -/
def declaredId? : TypeRef → Option TypeId
  | .declared id _ => some id
  | _ => none

/-- A return type that carries no value: a plain `void` or asynchronous result (`is_void`). -/
def isVoid : TypeRef → Bool
  | .external type [] =>
    match type.kind with
    | .void | .task => true
    | _ => false
  | _ => false

end TypeRef

/-! ## Declarations -/

/-- An instance property. -/
structure PropertyDef where
  name : String
  type : TypeRef
  markers : MarkerSet
  doc : Option String

/-- A static field with its literal value. -/
structure ConstantDef where
  name : String
  type : TypeRef
  value : String
  readonly : Bool

/-- A member of an enumeration. -/
structure EnumValue where
  name : String
  value : Int
  deriving DecidableEq, Repr

/-- A parameter of a method. -/
structure ParameterDef where
  name : String
  type : TypeRef
  markers : MarkerSet

/-- A public method; `returns` is absent when it returns nothing. -/
structure MethodDef where
  name : String
  markers : MarkerSet
  parameters : List ParameterDef
  returns : Option TypeRef

/-- A namespace and a name, with a dot between them unless the namespace is empty (`qualify`). -/
def qualify (space name : String) : String :=
  if space.isEmpty then name else space ++ "." ++ name

/-- What names a declared type. -/
structure Declaration where
  module : String
  space : String
  name : String
  kind : TypeKind
  deriving DecidableEq, Repr

/-- The name of the type with its namespace (`qualified_name`). -/
def Declaration.qualifiedName (d : Declaration) : String :=
  qualify d.space d.name

/-- What tells declared types apart. -/
def Declaration.key (d : Declaration) : String × String :=
  (d.qualifiedName, d.module)

/-- The members and modifiers of a declared type. -/
structure Body where
  isAbstract : Bool
  base : Option TypeRef
  markers : MarkerSet
  doc : Option String
  properties : List PropertyDef
  constants : List ConstantDef
  values : List EnumValue
  methods : List MethodDef

/-- A body without members. -/
def Body.empty : Body :=
  ⟨false, none, .empty, none, [], [], [], []⟩

/-- A declared type. -/
structure TypeDef extends Declaration, Body

/-- The printed form of a declared type (`fmt` of `TypeDef`). -/
def TypeDef.display (d : TypeDef) : String :=
  d.qualifiedName ++ " (" ++ d.module ++ ")"

/-- The type carries a marker. -/
def TypeDef.hasMarker (d : TypeDef) (m : Marker) : Bool :=
  d.markers.contains m

/-! ## Registries -/

/-- The declared types in order of declaration; a module declares a qualified name once
(`TypeRegistry`). -/
structure Registry where
  types : List TypeDef
  nodup : (types.map fun d => d.key).Nodup

namespace Registry

/-- The registry without types. -/
def empty : Registry := ⟨[], by simp⟩

/-- The declaration of an identity (`get`). -/
def get? (r : Registry) (id : TypeId) : Option TypeDef :=
  r.types[id.index]?

/-- The identities of the declared types in order. -/
def ids (r : Registry) : List TypeId :=
  (List.range r.types.length).map TypeId.mk

/-- The registry with one more type, without members. -/
def push (r : Registry) (d : Declaration) (h : d.key ∉ r.types.map (·.key)) : Registry where
  types := r.types ++ [{ d, Body.empty with }]
  nodup := by
    rw [List.map_append, List.nodup_append]
    refine ⟨r.nodup, by simp, ?_⟩
    intro a ha b hb he
    simp only [List.map_cons, List.map_nil, List.mem_singleton] at hb
    exact h (by rw [← he.trans hb]; exact ha)

/-- Steps on a registry, which may stop with an error; what they changed before stays. -/
abbrev Action := ExceptT Error (StateM Registry)

/-- Declares a type without members (`declare`). A module declares a qualified name only once. -/
def register (d : Declaration) : Action TypeId := do
  let r ← get
  if h : d.key ∈ r.types.map (·.key) then
    throw (.moduleLoad d.module (.declaredTwice d.qualifiedName))
  else
    set (r.push d h)
    return ⟨r.types.length⟩

/-- The identity of a type that is declared, and the registry with it. -/
def declare (r : Registry) (d : Declaration) : Except Error (TypeId × Registry) :=
  match (register d).run.run r with
  | (.ok id, r) => .ok (id, r)
  | (.error e, _) => .error e

/-- Changes the body of a type (`get_mut`). What names the type stays. -/
def update (r : Registry) (id : TypeId) (f : Body → Body) : Registry where
  types := r.types.modify id.index fun d => { d.toDeclaration, f d.toBody with }
  nodup := by
    have : (r.types.modify id.index fun d =>
        ({ d.toDeclaration, f d.toBody with } : TypeDef)).map (fun d => d.key)
          = r.types.map fun d => d.key := by
      apply List.ext_getElem?
      intro i
      simp only [List.getElem?_map, List.getElem?_modify]
      cases r.types[i]? <;> simp
      split <;> rfl
    rw [this]
    exact r.nodup

/-! ## Look-up -/

/-- The types of a qualified name with their identities, in order of declaration. -/
def candidates (r : Registry) (qualified : String) : List (TypeId × String) :=
  r.ids.filterMap fun id =>
    match r.get? id with
    | some d => if d.qualifiedName = qualified then some (id, d.module) else none
    | none => none

/-- The first candidate of the module that sorts first. -/
def leastModule : List (TypeId × String) → Option (TypeId × String)
  | [] => none
  | c :: cs =>
    match leastModule cs with
    | none => some c
    | some d => if Text.atMost c.2 d.2 then some c else some d

/-- The declared type of a qualified name: that of the module itself, or else that of the module
that sorts first (`lookup`). -/
def lookup (r : Registry) (qualified module : String) : Option TypeId :=
  let cs := r.candidates qualified
  match cs.find? (·.2 == module) with
  | some c => some c.1
  | none => (leastModule cs).map (·.1)

mutual
/-- The reference that an expression stands for, as seen from a module (`resolve`). -/
def resolve (r : Registry) (module : String) : TypeExpr → TypeRef
  | .array element => .array (r.resolve module element)
  | .named name args =>
    match r.lookup name module with
    | some id => .declared id (r.resolveAll module args)
    | none => .external name (r.resolveAll module args)
/-- The references that expressions stand for. -/
def resolveAll (r : Registry) (module : String) : List TypeExpr → List TypeRef
  | [] => []
  | e :: es => r.resolve module e :: r.resolveAll module es
end

/-! ## Printing -/

/-- The qualified name of a type. -/
def qualifiedName (r : Registry) (id : TypeId) : String :=
  match r.get? id with
  | some d => d.qualifiedName
  | none => ""

/-- A name with its printed arguments between angle brackets, if there are any (`with_args`). -/
def withArgs (name : String) (args : List String) : String :=
  if args.isEmpty then name else name ++ "<" ++ ", ".intercalate args ++ ">"

mutual
/-- The printed form of a reference, with the qualified names of declared types (`display`). -/
def display (r : Registry) : TypeRef → String
  | .array element => r.display element ++ "[]"
  | .declared id args => withArgs (r.qualifiedName id) (r.displayAll args)
  | .external type args => withArgs type.name (r.displayAll args)
/-- The printed forms of references. -/
def displayAll (r : Registry) : List TypeRef → List String
  | [] => []
  | t :: ts => r.display t :: r.displayAll ts
end

/-! ## Classes of declared types -/

/-- A class outside the framework's namespaces. -/
def isModel (r : Registry) (id : TypeId) : Bool :=
  match r.get? id with
  | some d => d.kind = .classType ∧ ¬isLibraryNamespace d.space
  | none => false

/-- An enumeration. -/
def isEnum (r : Registry) (id : TypeId) : Bool :=
  match r.get? id with
  | some d => d.kind = .enumType
  | none => false

/-- A model or an enumeration. -/
def isModelOrEnum (r : Registry) (id : TypeId) : Bool :=
  r.isModel id || r.isEnum id

/-- The type is left out of generation. -/
def isIgnored (r : Registry) (id : TypeId) : Bool :=
  match r.get? id with
  | some d => d.hasMarker .ignore
  | none => false

end Registry

end ApiClient
