import ApiClient.CommandLine
import ApiClient.Report.Format
import ApiClient.Run
import ApiClient.Settings.File

/-!
# The program

* `Input.options`: the options of a command line.
* `Program.run`: reads the command line, works on a disk, and gives an `Outcome`.
* `Outcome.exitCode`, `Outcome.output`, `Outcome.complaint`: what the caller sees of it.
-/

namespace ApiClient

/-- The options that the input of a command describes (`to_options`). -/
def CommandLine.Input.options (i : Input) (s : Path.Surroundings) (d : Disk) :
    Except Failure Options :=
  match i.settings with
  | some path => (Settings.optionsOfFile d s path).mapError (.settings path)
  | none =>
    let o := { Options.initial (i.source.getD "") (i.destination.getD "") with
      combineImports := i.combineImports
      handleErrors := i.handleErrors
      generateSchema := i.generateSchema
      dialect := i.dialect
      httpModule := i.httpModule }
    let o := (o.withFiles i.files).withControllerBases i.controllerBases
    let o := i.apiPath.elim o fun path => o.withApiPath path
    let o := i.schemaPath.elim o fun path => o.withSchemaPath path
    o.validate.mapError .options

/-- What a run that succeeds has to tell. -/
inductive Report where
  | generation (report : GenerationReport)
  | inspection (report : InspectionReport)
  /-- Completions for a shell. -/
  | completions (shell : String)

/-- How a run ends. -/
inductive Outcome where
  | done (format : OutputFormat) (report : Report)
  /-- The command line asks for nothing that can be run. -/
  | refused (fault : CommandLine.Fault)
  | failed (failure : Failure)

/-! ## Texts -/

namespace Program

/-- The name of the program. -/
def name : String := "api-client"

/-- The version of the program. -/
def version : String := "0.1.0"

/-- How the program is called. -/
def usage : String :=
  "Usage: " ++ name ++ " [OPTIONS] <COMMAND>\n\n"
    ++ "Commands:\n"
    ++ "  generate     Write models and the data service into a directory\n"
    ++ "  inspect      Show controllers, operations and models\n"
    ++ "  completions  Print completions for a shell\n"
    ++ "  help         Print this text\n"

/-- The words that a shell may offer. -/
def offered : List String :=
  CommandLine.programLevel.commands ++ CommandLine.inputLevel.named.map fun a => "--" ++ a.name

/-- A script that makes a shell offer the words of the command line. -/
def completions (shell : String) : String :=
  let words := " ".intercalate offered
  match shell with
  | "bash" => "complete -W '" ++ words ++ "' " ++ name ++ "\n"
  | "zsh" => "compctl -k '(" ++ words ++ ")' " ++ name ++ "\n"
  | "fish" => "complete -c " ++ name ++ " -f -a '" ++ words ++ "'\n"
  | "elvish" =>
    "set edit:completion:arg-completer[" ++ name ++ "] = \x7b|@args| put " ++ words ++ " \x7d\n"
  | _ =>
    "Register-ArgumentCompleter -Native -CommandName " ++ name ++ " -ScriptBlock \x7b '" ++ words
      ++ "' -split ' ' \x7d\n"

end Program

/-- What is wrong with a command line. -/
def CommandLine.Fault.message : Fault → String
  | .missingArgument => "a required argument is missing"
  | .unknownArgument => "an argument is unknown"
  | .invalidValue => "an argument has a bad value or none"
  | .unknownCommand => "the command is unknown"
  | .missingCommand => "the command is missing"
  | .conflict => "arguments exclude each other"
  | .tooManyValues => "an argument takes no value"
  | .help | .noWords => Program.usage
  | .version => Program.name ++ " " ++ Program.version ++ "\n"

/-- The text of a report for a run that took some seconds. -/
def Report.text (colored : Bool) (seconds : Binary64) (format : OutputFormat) : Report → String
  | .generation r => format.render colored (r.json (some seconds)) ++ "\n"
  | .inspection r => format.render colored r.json ++ "\n"
  | .completions shell => Program.completions shell

namespace Outcome

/-- The exit code. Help that was asked for, and the version, are no failures. -/
def exitCode : Outcome → Nat
  | .done _ _ | .refused .help | .refused .version => 0
  | .refused _ => 2
  | .failed failure => failure.exitCode

/-- What is printed as the result of a run that took some seconds. -/
def output (colored : Bool) (seconds : Binary64) : Outcome → String
  | .done format report => report.text colored seconds format
  | .refused .help => CommandLine.Fault.help.message
  | .refused .version => CommandLine.Fault.version.message
  | _ => ""

/-- What is printed as a complaint. -/
def complaint : Outcome → String
  | .done _ _ | .refused .help | .refused .version => ""
  | .refused .noWords => CommandLine.Fault.noWords.message
  | .refused fault => "error: " ++ fault.message ++ "\n"
  | .failed failure => "Error: " ++ failure.message ++ "\n"

end Outcome

/-! ## Runs -/

namespace Program

/-- Runs a command (`execute_command`). -/
def execute (s : Path.Surroundings) : CommandLine.Command → Disk.Action Failure Report
  | .generate input => do
    let options ← Disk.ask id (input.options s)
    .generation <$> Run.generate options s
  | .inspect input => do
    let options ← Disk.ask id (input.options s)
    .inspection <$> Disk.ask id (Run.inspect options s)
  | .completions shell => pure (.completions shell)

/-- Runs what a command line asks for. The form of the report is checked first. -/
def invoke (s : Path.Surroundings) (i : CommandLine.Invocation) :
    Disk.Action Failure (OutputFormat × Report) := do
  let format ← Disk.settle .format (OutputFormat.parse i.format)
  let report ← execute s i.command
  pure (format, report)

/-- Runs the program on a disk with the words after its name. -/
def run (s : Path.Surroundings) (words : List String) (d : Disk) : Outcome × Disk :=
  match CommandLine.parse words with
  | .error fault => (.refused fault, d)
  | .ok i =>
    match (invoke s i).run.run d with
    | (.ok (format, report), d) => (.done format report, d)
    | (.error failure, d) => (.failed failure, d)

end Program

end ApiClient
