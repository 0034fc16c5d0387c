import ApiClient.Dialect.Angular
import ApiClient.Dialect.React
import ApiClient.Manifest
import ApiClient.Scan
import ApiClient.Template.Catalog

/-!
# Generated code

* `GeneratedCode`: files in the order in which they are generated.
* `Scan.generate`: a file for each model, the service if there is an API path, the list of exports,
  and the manifest if it is asked for.

A model whose file name, up to case, is taken by an earlier model, the service or the list of
exports is left out.
-/

namespace ApiClient

/-- A generated file. -/
structure GeneratedFile where
  path : String
  content : String
  deriving DecidableEq, Repr

/-- Generated files in order. -/
structure GeneratedCode where
  files : List GeneratedFile
  deriving DecidableEq, Repr

namespace GeneratedCode

/-- The first file of a path (`get` of `GeneratedCode`). -/
def get? (c : GeneratedCode) (path : String) : Option GeneratedFile :=
  c.files.find? (·.path == path)

/-- The first name of a path that says something. -/
def topName? (path : String) : Option String :=
  ((Text.splitOn '/' path.toList).find? fun name => !Path.isIdle name).map String.ofList

/-- The names of files and directories at the top, sorted, each once. -/
def names (c : GeneratedCode) : List String :=
  Text.sortByText id (distinctBy id [] (c.files.filterMap fun f => topName? f.path))

end GeneratedCode

/-! ## Rendering -/

/-- The context of a model in a dialect. -/
def ModelView.context (v : ModelView) (o : Options) : Json.Value :=
  match o.dialect with
  | .angular => (Angular.classContext o v).json
  | .react => (React.interfaceContext o v).json

/-- The context of a service in a dialect. -/
def Service.context (s : Service) (o : Options) (apiPath : String) : Json.Value :=
  match o.dialect with
  | .angular => (Angular.serviceContext o s apiPath).json
  | .react => (React.serviceContext o s apiPath).json

/-- The text of a model. -/
def ModelView.render (v : ModelView) (o : Options) : Except Error String :=
  match o.dialect with
  | .angular => Catalog.builtIn.render "angular/class" (v.context o)
  | .react => Catalog.builtIn.render "react/interface" (v.context o)

/-- The text of a service. -/
def Service.render (s : Service) (o : Options) (apiPath : String) : Except Error String :=
  match o.dialect with
  | .angular => Catalog.builtIn.render "angular/service" (s.context o apiPath)
  | .react => Catalog.builtIn.render "react/service" (s.context o apiPath)

/-- The text of an enumeration. -/
def EnumView.render (e : EnumView) : Except Error String :=
  Catalog.builtIn.render "common/enum" e.json

/-- The text of the list of exports. -/
def renderIndex (entries : List String) : Except Error String :=
  Catalog.builtIn.render "common/index" (.object [("entries", .strings entries)])

/-! ## Files -/

/-- The name of the service. -/
def serviceName : String := "DataService"

/-- The name of the list of exports. -/
def indexName : String := "index"

/-- The path of a generated file of code. -/
def codePath (name : String) : String :=
  name ++ ".ts"

/-- The path of the manifest: slashes between names, and no idle names at its beginning (`new` of
`CodeGenerator`). -/
def Options.manifestPath (o : Options) : String :=
  String.ofList (Path.dropHere (Path.forwardSlashes o.schemaPath))

namespace Scan

/-- The text of a model or enumeration. -/
def renderType (s : Scan) (o : Options) (id : TypeId) (d : TypeDef) : Except Error String :=
  if d.kind = .enumType then d.enumView.render else (s.registry.view id d).render o

/-- The models that get a file, in order; `taken` are the file names in lower case that others
have. -/
def emitted (s : Scan) (taken : List String) : List TypeId → List (TypeId × TypeDef)
  | [] => []
  | id :: ids =>
    match s.registry.get? id with
    | none => emitted s taken ids
    | some d =>
      let name := Text.lower d.name
      if name ∈ taken then emitted s taken ids
      else (id, d) :: emitted s (name :: taken) ids

/-- The models that get a file. -/
def emittedModels (s : Scan) : List (TypeId × TypeDef) :=
  s.emitted ([indexName, serviceName].map Text.lower) (s.models.sorted s.registry)

/-- The file of a model. -/
def modelFile (s : Scan) (o : Options) (m : TypeId × TypeDef) : Except Error GeneratedFile :=
  (s.renderType o m.1 m.2).map fun content => ⟨codePath m.2.name, content⟩

/-- The file of the service, if there is one. The API path is given without slashes after it. -/
def serviceFile? (s : Scan) (o : Options) : Except Error (Option GeneratedFile) :=
  match o.apiPath with
  | none => .ok none
  | some apiPath =>
    let apiPath := String.ofList (Text.dropEnd '/' apiPath.toList)
    ((s.registry.service s.controllers).render o apiPath).map fun content =>
      some ⟨codePath serviceName, content⟩

/-- What the list of exports lists: the models that have a file, and the service. -/
def entries (s : Scan) (o : Options) : List String :=
  Text.sortByText id
    (s.emittedModels.map (·.2.name) ++ (o.apiPath.map fun _ => serviceName).toList)

/-- The file of the manifest, if it is asked for. -/
def manifestFile? (s : Scan) (o : Options) : Except Error (Option GeneratedFile) :=
  if o.generateSchema then
    (s.registry.manifestText s.models).map fun content => some ⟨o.manifestPath, content⟩
  else .ok none

/-- The files for a scan (`generate` of `CodeGenerator`). -/
def generate (s : Scan) (o : Options) : Except Error GeneratedCode := do
  let models ← s.emittedModels.mapM (s.modelFile o)
  let service ← s.serviceFile? o
  let index ← renderIndex (s.entries o)
  let manifest ← s.manifestFile? o
  .ok ⟨models ++ service.toList ++ [⟨codePath indexName, index⟩] ++ manifest.toList⟩

end Scan

end ApiClient
