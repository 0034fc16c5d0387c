import ApiClient.Scan

/-!
# Reports of inspection

An `InspectionReport` says what a run of the generator would work from. Types are written as the
metadata writes them.
-/

namespace ApiClient

/-- An operation in a report. -/
structure OperationReport where
  name : String
  verb : Option HttpVerb
  /-- Names with their types. -/
  parameters : List (String × String)
  returns : Option String

/-- A controller in a report. -/
structure ControllerReport where
  name : String
  group : String
  operations : List OperationReport

/-- What a directory of modules holds. -/
structure InspectionReport where
  source : String
  modules : List String
  skipped : List SkippedModule
  controllers : List ControllerReport
  /-- The qualified names of the models. -/
  models : List String

/-- The report of an operation. -/
def OperationReport.of (r : Registry) (o : Operation) : OperationReport where
  name := o.name
  verb := o.verb
  parameters := o.parameters.map fun p => (p.name, r.display p.type)
  returns := o.returns.map r.display

/-- The report of a controller. -/
def ControllerReport.of (r : Registry) (c : Controller) : ControllerReport where
  name := c.name
  group := c.group
  operations := c.operations.map (.of r)

/-- The report of a scan of a directory. -/
def InspectionReport.of (source : String) (s : Scan) : InspectionReport where
  source
  modules := s.modules
  skipped := s.skipped
  controllers := s.controllers.map (.of s.registry)
  models := (s.models.sorted s.registry).map s.registry.qualifiedName

/-! ## Values -/

/-- An operation as a value. -/
def OperationReport.json (o : OperationReport) : Json.Value :=
  .object [("name", .string o.name), ("verb", .string? (o.verb.map (·.keyword))),
    ("parameters", .strings (o.parameters.map fun p => p.1 ++ ": " ++ p.2)),
    ("returns", .string? o.returns)]

/-- A controller as a value. -/
def ControllerReport.json (c : ControllerReport) : Json.Value :=
  .object [("name", .string c.name), ("group", .string c.group),
    ("operations", .array (c.operations.map (·.json)))]

/-- A module that was left out as a value. -/
def SkippedModule.json (m : SkippedModule) : Json.Value :=
  .object [("origin", .string m.origin), ("reason", .string m.reason)]

/-- The report as a value. -/
def InspectionReport.json (r : InspectionReport) : Json.Value :=
  .object [("source", .string r.source), ("modules", .strings r.modules),
    ("skipped", .array (r.skipped.map (·.json))),
    ("controllers", .array (r.controllers.map (·.json))), ("models", .strings r.models)]

end ApiClient
