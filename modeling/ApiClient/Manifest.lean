import ApiClient.Collections.Distinct
import ApiClient.Json.Printer
import ApiClient.ModelSet
import ApiClient.Registry.Inheritance

/-!
# Schema manifests

The manifest describes the models of a set and all types that their members mention, directly or
through others. A type is identified by its printed form.

* `Registry.manifest`: the entries, the models of the set first, then layer by layer what they
  mention. It gives up when a layer is more than `maxPasses` passes away.
* `Registry.manifestText`: the manifest as JSON.
-/

namespace ApiClient

/-- A member of a type in a manifest (`SchemaField`). -/
structure ManifestField where
  id : String
  name : String
  description : Option String
  deriving DecidableEq, Repr

/-- A type in a manifest (`SchemaModel`). -/
structure ManifestEntry where
  id : String
  name : String
  qualifiedName : String
  fields : List ManifestField
  isClass : Bool
  description : Option String
  deriving DecidableEq, Repr

namespace ManifestEntry

/-- A member as JSON. -/
def fieldJson (f : ManifestField) : Json.Value :=
  .object [("id", .string f.id), ("name", .string f.name),
    ("description", .string? f.description)]

/-- An entry as JSON. -/
def json (e : ManifestEntry) : Json.Value :=
  .object [("id", .string e.id), ("name", .string e.name),
    ("qualifiedName", .string e.qualifiedName), ("fields", .array (e.fields.map fieldJson)),
    ("isClass", .bool e.isClass), ("description", .string? e.description)]

end ManifestEntry

namespace Registry

/-- The number of passes after which a manifest is given up. -/
def maxPasses : Nat := 100

/-- A printed form without the namespace of its head (`short_name`). -/
def shortForm (display : String) : String :=
  let head := display.toList.takeWhile (· != '<')
  let name := (head.reverse.takeWhile (· != '.')).length
  String.ofList (display.toList.drop (head.length - name))

/-- The constants of a type. -/
def constantsOf (r : Registry) (id : TypeId) : List ConstantDef :=
  (r.get? id).elim [] (·.constants)

/-- The types that the members of a reference have: those of the constants, then those of all
properties. Only declared types have members. -/
def memberTypes (r : Registry) : TypeRef → List TypeRef
  | .declared id _ => (r.constantsOf id).map (·.type) ++ (r.allProperties id).map (·.type)
  | _ => []

/-- The entry of a reference (`describe`). -/
def manifestEntry (r : Registry) (t : TypeRef) : ManifestEntry :=
  let display := r.display t
  match t.declaredId?.bind r.get?, t.declaredId? with
  | some d, some id =>
    { id := display
      name := d.name
      qualifiedName := d.qualifiedName ++ ", " ++ d.module
      fields :=
        (d.constants.map fun c => ⟨r.display c.type, c.name, none⟩)
          ++ (r.allProperties id).map fun p => ⟨r.display p.type, p.name, p.doc⟩
      isClass := d.kind = .classType
      description := d.doc }
  | _, _ => ⟨display, shortForm display, display, [], false, none⟩

/-- The entries of a layer and of the layers after it; `present` are the printed forms that have an
entry or belong to the layer (the passes of `build_schema`). -/
def manifestLayers (r : Registry) :
    Nat → List String → List TypeRef → Except Error (List ManifestEntry)
  | passes, present, layer =>
    let entries := layer.map r.manifestEntry
    let missing := distinctBy r.display present (layer.flatMap r.memberTypes)
    if missing.isEmpty then .ok entries
    else
      match passes with
      | 0 => .error (.schemaDiverged maxPasses)
      | passes + 1 =>
        (manifestLayers r passes (missing.map r.display ++ present) missing).map (entries ++ ·)

/-- The manifest of a set of models (`build_schema`). -/
def manifest (r : Registry) (models : ModelSet) : Except Error (List ManifestEntry) :=
  let layer := (models.sorted r).map fun id => TypeRef.declared id []
  r.manifestLayers maxPasses (layer.map r.display) layer

/-- The manifest of a set of models as JSON (`render_schema`). -/
def manifestText (r : Registry) (models : ModelSet) : Except Error String :=
  (r.manifest models).map fun entries => (Json.Value.array (entries.map (·.json))).pretty

end Registry

end ApiClient
