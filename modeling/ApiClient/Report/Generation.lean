import ApiClient.Options
import ApiClient.Output.Sync
import ApiClient.Scan

/-!
# Reports of generation

A `GenerationReport` says what a run worked from and which files it changed.
-/

namespace ApiClient

/-- What a run of the generator did (`GenerationSummary`). -/
structure GenerationReport where
  dialect : Dialect
  models : Nat
  controllers : Nat
  operations : Nat
  /-- The modules that were left out. -/
  skippedModules : List String
  written : List String
  unchanged : Nat
  deleted : List String
  destination : String
  deriving DecidableEq, Repr

namespace GenerationReport

/-- The report of a scan whose files were synced. -/
def of (dialect : Dialect) (scan : Scan) (sync : SyncReport) : GenerationReport where
  dialect
  models := scan.models.size
  controllers := scan.controllers.length
  operations := scan.operations.length
  skippedModules := scan.skipped.map (·.origin)
  written := sync.written
  unchanged := sync.unchanged.length
  deleted := sync.deleted
  destination := sync.destination

/-- The report as a value, with the seconds that the run took if they are known. -/
def json (seconds : Option Binary64) (r : GenerationReport) : Json.Value :=
  .object ([("generator", .string r.dialect.keyword), ("models", .nat r.models),
    ("controllers", .nat r.controllers), ("operations", .nat r.operations),
    ("skipped_modules", .strings r.skippedModules), ("written", .strings r.written),
    ("unchanged", .nat r.unchanged), ("deleted", .strings r.deleted),
    ("destination", .string r.destination)]
    ++ (seconds.map fun x => ("elapsed_seconds", .number (.double x))).toList)

end GenerationReport

end ApiClient
