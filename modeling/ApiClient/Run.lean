import ApiClient.Generation
import ApiClient.Loading.Directory
import ApiClient.Output.Sync
import ApiClient.Report.Generation
import ApiClient.Report.Inspection
import ApiClient.Run.Failure

/-!
# Runs

* `Run.scan`: scans the modules of the source directory.
* `Run.inspect`: reports what generation would work from, and changes nothing.
* `Run.generate`: generates the code and brings the destination up to date.
-/

namespace ApiClient.Run

/-- Scans the modules of the source directory (`scan` of `Introspector`). -/
def scan (o : Options) (s : Path.Surroundings) (d : Disk) : Except Failure Scan :=
  match loadDirectory d (o.sourceDirectory s) o.files with
  | .ok modules => .ok (.ofModules o.controllerBases modules)
  | .error e => .error (.scan e)

/-- Reports what generation would work from. -/
def inspect (o : Options) (s : Path.Surroundings) (d : Disk) : Except Failure InspectionReport :=
  (scan o s d).map (.of (o.sourceDirectory s))

/-- Generates the code and brings the destination up to date. Nothing is written unless all of the
code is generated. -/
def generate (o : Options) (s : Path.Surroundings) : Disk.Action Failure GenerationReport := do
  let scan ← Disk.ask id (scan o s)
  let code ← Disk.settle .generation (scan.generate o)
  let tree ← Disk.settle .output (Tree.build code.files)
  let destination := o.destinationDirectory s
  let report ← (tree.sync destination).adapt (.sync destination)
  pure (.of o.dialect scan report)

end ApiClient.Run
