import ApiClient.Json.Printer
import ApiClient.Json.Reader
import ApiClient.Registry

/-!
# Metadata documents

A metadata document describes one module: its types with their members, and type references as
type expressions. `ModuleDocument.ofJson` reads one; what it leaves out has the defaults of the
shapes below.
-/

namespace ApiClient

open Json Json.Reader

/-- A property of a type. -/
structure PropertyDocument where
  name : String
  type : TypeExpr
  markers : List String
  doc : Option String

/-- A static field. -/
structure ConstantDocument where
  name : String
  type : TypeExpr
  value : Json.Value
  readonly : Bool

/-- A member of an enumeration. -/
structure ValueDocument where
  name : String
  value : Int

/-- A parameter of a method. -/
structure ParameterDocument where
  name : String
  type : TypeExpr
  markers : List String

/-- A method of a type. -/
structure MethodDocument where
  name : String
  markers : List String
  parameters : List ParameterDocument
  returns : Option TypeExpr

/-- A type of a module. -/
structure TypeDocument where
  name : String
  space : String
  kind : TypeKind
  isAbstract : Bool
  base : Option TypeExpr
  markers : List String
  doc : Option String
  properties : List PropertyDocument
  constants : List ConstantDocument
  values : List ValueDocument
  methods : List MethodDocument

/-- A module. -/
structure ModuleDocument where
  module : Option String
  types : List TypeDocument

/-- The literal text of a constant: a text as it is, any other value as JSON (`value_text`). -/
def ConstantDocument.valueText (c : ConstantDocument) : String :=
  match c.value with
  | .string s => s
  | v => v.canonical.compact

/-! ## Shapes -/

/-- The shape of a property. -/
def PropertyDocument.shape : Shape PropertyDocument where
  name := "PropertyDocument"
  blank := ⟨"", .named "" [], [], none⟩
  fields := [
    .required "name" text fun v p => { p with name := v },
    .required "type" typeExpr fun v p => { p with type := v },
    .defaulted "markers" (listOf text) fun v p => { p with markers := v },
    .defaulted "doc" (Reader.optional text) fun v p => { p with doc := v }]

/-- The shape of a static field. -/
def ConstantDocument.shape : Shape ConstantDocument where
  name := "ConstantDocument"
  blank := ⟨"", .named "" [], .null, false⟩
  fields := [
    .required "name" text fun v c => { c with name := v },
    .required "type" typeExpr fun v c => { c with type := v },
    .required "value" Reader.value fun v c => { c with value := v },
    .defaulted "readonly" bool fun v c => { c with readonly := v }]

/-- The shape of a member of an enumeration. -/
def ValueDocument.shape : Shape ValueDocument where
  name := "ValueDocument"
  blank := ⟨"", 0⟩
  fields := [
    .required "name" text fun v e => { e with name := v },
    .required "value" int64 fun v e => { e with value := v }]

/-- The shape of a parameter. -/
def ParameterDocument.shape : Shape ParameterDocument where
  name := "ParameterDocument"
  blank := ⟨"", .named "" [], []⟩
  fields := [
    .required "name" text fun v p => { p with name := v },
    .required "type" typeExpr fun v p => { p with type := v },
    .defaulted "markers" (listOf text) fun v p => { p with markers := v }]

/-- The shape of a method. -/
def MethodDocument.shape : Shape MethodDocument where
  name := "MethodDocument"
  blank := ⟨"", [], [], none⟩
  fields := [
    .required "name" text fun v m => { m with name := v },
    .defaulted "markers" (listOf text) fun v m => { m with markers := v },
    .defaulted "parameters" (listOf (record ParameterDocument.shape))
      fun v m => { m with parameters := v },
    .defaulted "returns" (Reader.optional typeExpr) fun v m => { m with returns := v }]

/-- The shape of a type, which is a class unless it says otherwise. -/
def TypeDocument.shape : Shape TypeDocument where
  name := "TypeDocument"
  blank := ⟨"", "", .classType, false, none, [], none, [], [], [], []⟩
  fields := [
    .required "name" text fun v t => { t with name := v },
    .defaulted "namespace" text fun v t => { t with space := v },
    .defaulted "kind" (oneOf TypeKind.byKeyword) fun v t => { t with kind := v },
    .defaulted "abstract" bool fun v t => { t with isAbstract := v },
    .defaulted "base" (Reader.optional typeExpr) fun v t => { t with base := v },
    .defaulted "markers" (listOf text) fun v t => { t with markers := v },
    .defaulted "doc" (Reader.optional text) fun v t => { t with doc := v },
    .defaulted "properties" (listOf (record PropertyDocument.shape))
      fun v t => { t with properties := v },
    .defaulted "constants" (listOf (record ConstantDocument.shape))
      fun v t => { t with constants := v },
    .defaulted "values" (listOf (record ValueDocument.shape)) fun v t => { t with values := v },
    .defaulted "methods" (listOf (record MethodDocument.shape))
      fun v t => { t with methods := v }]

/-- The shape of a module. -/
def ModuleDocument.shape : Shape ModuleDocument where
  name := "ModuleDocument"
  blank := ⟨none, []⟩
  fields := [
    .defaulted "module" (Reader.optional text) fun v d => { d with module := v },
    .defaulted "types" (listOf (record TypeDocument.shape)) fun v d => { d with types := v }]

/-- Reads a metadata document (`from_json` of `ModuleDocument`). -/
def ModuleDocument.ofJson (contents : String) : Except DocumentFault ModuleDocument :=
  (Reader.run (record shape) contents).mapError .metadata

end ApiClient
