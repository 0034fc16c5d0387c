import ApiClient.CommandLine.Grammar
import ApiClient.Options

/-!
# The command line

* `Invocation`: what a command line asks for.
* `CommandLine.parse`: reads the words after the program's name. Words before the command may be
  repeated after it, and then the later ones count; what is wrong with the command's own words is
  reported first.
-/

namespace ApiClient.CommandLine

/-- Where a run takes its options from (`InputArgs`). -/
structure Input where
  /-- A settings file, which excludes the source, the destination and the API path. -/
  settings : Option String
  source : Option String
  destination : Option String
  apiPath : Option String
  files : List String
  controllerBases : List String
  combineImports : Bool
  handleErrors : Bool
  generateSchema : Bool
  schemaPath : Option String
  dialect : Dialect
  httpModule : HttpModule
  deriving DecidableEq, Repr

/-- What a run does. -/
inductive Command where
  | generate (input : Input)
  | inspect (input : Input)
  | completions (shell : String)
  deriving DecidableEq, Repr

/-- What a command line asks for. -/
structure Invocation where
  verbose : Bool
  /-- The name of the form of the report, which is not checked yet. -/
  format : String
  command : Command
  deriving DecidableEq, Repr

/-! ## Arguments -/

/-- Any value is accepted. -/
def anyValue : Role := .single fun _ => true

/-- Any value but the empty one is accepted. -/
def someValue : Role := .single (!·.isEmpty)

/-- One of a list of values is accepted. -/
def oneOf (values : List String) : Role := .single values.contains

/-- The dialects by their words on the command line. -/
def dialects : List (String × Dialect) :=
  [("angular", .angular), ("react", .react)]

/-- The modules by their words on the command line. -/
def httpModules : List (String × HttpModule) :=
  [("client", .client), ("legacy", .legacy)]

/-- The shells that have completions. -/
def shells : List String := ["bash", "elvish", "fish", "powershell", "zsh"]

/-- The arguments that may stand before and after the command. -/
def shared : List Argument :=
  [⟨"help", some 'h', .help⟩, ⟨"verbose", some 'v', .switch⟩, ⟨"format", none, anyValue⟩]

/-- The words before the command. -/
def programLevel : Level where
  named := ⟨"version", some 'V', .version⟩ :: shared
  placed := []
  commands := ["generate", "inspect", "completions", "help"]

/-- The words of a command that works on metadata. -/
def inputLevel : Level where
  named := shared ++ [
    ⟨"settings", some 's', someValue⟩,
    ⟨"files", none, .list⟩,
    ⟨"class", none, .list⟩,
    ⟨"combine-imports", none, .switch⟩,
    ⟨"http-module", none, oneOf (httpModules.map (·.1))⟩,
    ⟨"no-handle-errors", none, .switch⟩,
    ⟨"schema", none, .switch⟩,
    ⟨"schema-path", none, anyValue⟩,
    ⟨"generator", none, oneOf (dialects.map (·.1))⟩]
  placed := [⟨"source", none, anyValue⟩, ⟨"destination", none, anyValue⟩,
    ⟨"api-path", none, anyValue⟩]
  commands := []

/-- The words of the command for completions. -/
def completionsLevel : Level where
  named := shared
  placed := [⟨"shell", none, oneOf shells⟩]
  commands := []

/-! ## Commands -/

/-- The words of a level, all of them checked. -/
def matchAll (g : Level) (words : List String) : Except Fault Matches := do
  (← g.read words).1.settle

/-- What must hold of the words of a command that works on metadata: a settings file stands alone,
and without one there are a source and a destination. -/
def checkInput (m : Matches) : Except Fault Unit :=
  if m.has "settings" then
    if ["source", "destination", "api-path"].any m.has then .error .conflict else .ok ()
  else if ["source", "destination"].all m.has then .ok ()
  else .error .missingArgument

/-- The choice that an argument names, or the default. -/
def choice {α : Type} (m : Matches) (name : String) (choices : List (String × α)) (default : α) :
    α :=
  ((m.value? name).bind (List.lookup · choices)).getD default

/-- The input that matched words describe. -/
def Input.ofMatches (m : Matches) : Input where
  settings := m.value? "settings"
  source := m.value? "source"
  destination := m.value? "destination"
  apiPath := m.value? "api-path"
  files := m.values "files"
  controllerBases := m.values "class"
  combineImports := m.has "combine-imports"
  handleErrors := !m.has "no-handle-errors"
  generateSchema := m.has "schema"
  schemaPath := m.value? "schema-path"
  dialect := choice m "generator" dialects .angular
  httpModule := choice m "http-module" httpModules .client

/-- The input of a command, and all its matched words. -/
def readInput (words : List String) : Except Fault (Input × Matches) := do
  let m ← matchAll inputLevel words
  checkInput m
  .ok (.ofMatches m, m)

/-- The request for help with a command; further words must name a command, too. -/
def helpFault : List String → Fault
  | [] => .help
  | [name] => if programLevel.commands.contains name then .help else .unknownCommand
  | _ => .unknownCommand

/-- A command and its matched words. -/
def readCommand (name : String) (words : List String) : Except Fault (Command × Matches) :=
  match name with
  | "generate" => (readInput words).map fun (input, m) => (.generate input, m)
  | "inspect" => (readInput words).map fun (input, m) => (.inspect input, m)
  | "completions" => do
    let m ← matchAll completionsLevel words
    match m.value? "shell" with
    | some shell => .ok (.completions shell, m)
    | none => .error .missingArgument
  | _ => .error (helpFault words)

/-- The form of a report unless one is named. -/
def defaultFormat : String := "pretty"

/-- Reads the words after the program's name. -/
def parse (words : List String) : Except Fault Invocation := do
  match ← programLevel.read words with
  | (m, some (name, words)) => do
    let (command, own) ← readCommand name words
    let m ← m.settle
    .ok {
      verbose := own.has "verbose" || m.has "verbose"
      format := (own.value? "format" <|> m.value? "format").getD defaultFormat
      command }
  | (m, none) => do
    let m ← m.settle
    .error (if m.found.isEmpty then .noWords else .missingCommand)

end ApiClient.CommandLine
