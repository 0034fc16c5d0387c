import ApiClient.Controllers
import ApiClient.Discovery
import ApiClient.Loading

/-!
# Scans

A scan is what generation starts from: the declared types, the controllers, and the models that
their operations need.
-/

namespace ApiClient

/-- The result of scanning modules (`ScanResult`). -/
structure Scan where
  registry : Registry
  modules : List String
  skipped : List SkippedModule
  controllers : List Controller
  models : ModelSet

namespace Scan

/-- The operations of all controllers. -/
def operations (s : Scan) : List Operation :=
  s.controllers.flatMap (·.operations)

/-- Finds the controllers with one of the given bases, and the models that they need
(`scan_modules`). -/
def ofModules (bases : List String) (l : LoadedModules) : Scan :=
  let controllers := l.registry.controllers bases
  { registry := l.registry
    modules := l.modules
    skipped := l.skipped
    controllers
    models := l.registry.discover (controllers.flatMap (·.operations)) }

end Scan

end ApiClient
