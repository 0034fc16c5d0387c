import ApiClient.Document
import ApiClient.Text.Blank

/-!
# Loading modules

* `Loader.queue`, `Loader.add`: queue a document, unless its module is queued already or its types
  are not named properly; as a step on the loader and with the loader as a result.
* `Loader.load`: the registry of the queued modules, in the order of their names. All types are
  declared before any member is resolved, so references may go in all directions.
-/

namespace ApiClient

/-- A document that was left out, and why. -/
structure SkippedModule where
  origin : String
  reason : String
  deriving DecidableEq, Repr

/-- The queued documents by their modules, and those that were left out (`ModuleLoader`). -/
structure Loader where
  pending : List (String × ModuleDocument)
  /-- The modules of the queued documents. -/
  names : List String
  skipped : List SkippedModule
  mem_names : ∀ name, name ∈ names ↔ name ∈ pending.map (·.1)

/-- What loading gives. -/
structure LoadedModules where
  registry : Registry
  /-- The names of the modules, sorted. -/
  modules : List String
  skipped : List SkippedModule

namespace Loader

/-- The loader with these documents. -/
def ofPending (pending : List (String × ModuleDocument)) : Loader where
  pending := pending
  names := pending.map (·.1)
  skipped := []
  mem_names _ := .rfl

/-- The loader without documents. -/
def empty : Loader := ofPending []

/-- The module of a document: the name that it gives, or else the fallback. -/
def moduleName (fallback : String) (d : ModuleDocument) : String :=
  match d.module with
  | some name => if Text.isBlankText name then fallback else name
  | none => fallback

/-- The first fault of a list of types after those that are `declared`. -/
def typesFault (declared : List (String × String)) : List TypeDocument → Option ModuleFault
  | [] => none
  | t :: ts =>
    if Text.isBlankText t.name then some .blankTypeName
    else if (t.space, t.name) ∈ declared then
      some (.declaredTwice (t.space ++ "." ++ t.name))
    else typesFault ((t.space, t.name) :: declared) ts

/-- Why a document of a module is refused, if it is. -/
def fault? (l : Loader) (module : String) (d : ModuleDocument) : Option ModuleFault :=
  if module ∈ l.names then some .alreadyLoaded
  else typesFault [] d.types

/-- The loader with one more document. -/
def push (l : Loader) (q : String × ModuleDocument) : Loader where
  pending := l.pending ++ [q]
  names := q.1 :: l.names
  skipped := l.skipped
  mem_names name := by
    rw [List.mem_cons, l.mem_names, List.map_append, List.mem_append, or_comm,
      List.map_singleton, List.mem_singleton]

/-- Steps on a loader, which may stop with an error; what they changed before stays. -/
abbrev Action := ExceptT Error (StateM Loader)

/-- Queues a document (`add_document`). -/
def queue (fallback : String) (d : ModuleDocument) : Action Unit := do
  let l ← get
  let module := moduleName fallback d
  match l.fault? module d with
  | some fault => throw (.moduleLoad module fault)
  | none => set (l.push (module, d))

/-- The loader with a document that is queued. -/
def add (l : Loader) (fallback : String) (d : ModuleDocument) : Except Error Loader :=
  match (queue fallback d).run.run l with
  | (.ok (), l) => .ok l
  | (.error e, _) => .error e

/-! ## Resolving -/

/-- The declaration of a type of a module. -/
def declaration (module : String) (t : TypeDocument) : Declaration :=
  ⟨module, t.space, t.name, t.kind⟩

/-- The members of a type of a module, resolved against a registry (`resolve_members`). -/
def body (r : Registry) (module : String) (t : TypeDocument) : Body where
  isAbstract := t.isAbstract
  base := t.base.map (r.resolve module)
  markers := .ofNames t.markers
  doc := t.doc
  properties := t.properties.map fun p =>
    ⟨p.name, r.resolve module p.type, .ofNames p.markers, p.doc⟩
  constants := t.constants.map fun c =>
    ⟨c.name, r.resolve module c.type, c.valueText, c.readonly⟩
  values := t.values.map fun v => ⟨v.name, v.value⟩
  methods := t.methods.map fun m =>
    { name := m.name
      markers := .ofNames m.markers
      parameters := m.parameters.map fun p => ⟨p.name, r.resolve module p.type, .ofNames p.markers⟩
      returns := (m.returns.map (r.resolve module)).filter (!·.isVoid) }

/-- Declares types in order and lists the declared ones; a type of a name that its module declares
already is left out. -/
def declareAll (r : Registry) :
    List (String × TypeDocument) → Registry × List (TypeId × String × TypeDocument)
  | [] => (r, [])
  | (module, t) :: ts =>
    let (outcome, r) := (Registry.register (declaration module t)).run.run r
    let (r, declared) := declareAll r ts
    match outcome with
    | .ok id => (r, (id, module, t) :: declared)
    | .error _ => (r, declared)

/-- The queued documents by the names of their modules. -/
def sorted (l : Loader) : List (String × ModuleDocument) :=
  Text.sortByText (·.1) l.pending

/-- The types of the queued documents with their modules. -/
def types (l : Loader) : List (String × TypeDocument) :=
  l.sorted.flatMap fun (module, d) => d.types.map (module, ·)

/-- Loads the queued documents (`load`). Members are resolved against the registry as it is by then:
the types before are filled in, those after are not. -/
def load (l : Loader) : LoadedModules where
  registry :=
    let (r, declared) := declareAll .empty l.types
    declared.foldl (fun r (id, module, t) => r.update id fun _ => body r module t) r
  modules := l.sorted.map (·.1)
  skipped := l.skipped

end Loader

end ApiClient
