import ApiClient.Error
import ApiClient.Output.Fault

/-!
# Failures of runs

A `Failure` is an error together with what the run was about when it arose.

* `Failure.chain`: the wordings from the run down to the cause; `Failure.message` joins them.
* `Failure.exitCode`: the exit code of the run.
-/

namespace ApiClient

/-- Why a run fails. -/
inductive Failure where
  /-- The form of the report is unknown. -/
  | format (e : Error)
  /-- A settings file gives no options. -/
  | settings (path : String) (e : Error)
  /-- The arguments give no options. -/
  | options (e : Error)
  /-- The modules cannot be scanned. -/
  | scan (e : Error)
  /-- The code cannot be generated. -/
  | generation (e : Error)
  /-- A generated file has a bad path. -/
  | output (fault : OutputFault)
  /-- The files cannot be written. -/
  | sync (destination : String) (fault : OutputFault)

namespace Failure

/-- The wordings from the run down to the cause. -/
def chain : Failure → List String
  | .format e => e.chain
  | .settings path e => ("failed to load settings from " ++ path) :: e.chain
  | .options e => "invalid generation options" :: e.chain
  | .scan e => "failed to scan source modules" :: e.chain
  | .generation e => "failed to generate code" :: e.chain
  | .output fault => "generated an invalid output path" :: fault.chain
  | .sync destination fault => ("failed to write to " ++ destination) :: fault.chain

/-- The wording of a failure. -/
def message (f : Failure) : String :=
  ": ".intercalate f.chain

/-- The exit code: that of the error, and one for faults of the output (`exit_code_for`). -/
def exitCode : Failure → Nat
  | .format e | .settings _ e | .options e | .scan e | .generation e => e.exitCode
  | .output _ | .sync _ _ => 1

end Failure

end ApiClient
