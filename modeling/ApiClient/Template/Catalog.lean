import ApiClient.Error
import ApiClient.Template.Parser

/-!
# The templates of generated code

* `Template.enumeration`, `index`: enumerations and the list of exports, in both dialects.
* `Template.angularClass`, `angularService`: classes that revive their fields, and a service of
  observables.
* `Template.reactInterface`, `reactService`: interfaces with functions that revive them, and a
  service of promises.
* `Catalog`: templates by name; `Catalog.render` fills one.
-/

namespace ApiClient

namespace Template

/-! ## Parts -/

/-- A line of fixed text. -/
def line (s : String) : Part :=
  .text (s ++ "\n")

/-- The value of a key. -/
def key (name : String) : Part :=
  .value [name]

/-- Parts that depend on a key. -/
def given (name : String) (parts : List Part) : Part :=
  .choice [name] parts []

/-- Parts for every item of a key. -/
def forEach (name : String) (parts : List Part) : Part :=
  .each [name] parts none

/-- The import of the library for dates. -/
def momentImport : Part :=
  given "uses_moment" [line "import * as moment from 'moment';"]

/-- The imports of models, all together with `many` for each of them, or each by a line `one`. -/
def modelImports (many one : List Part) : Part :=
  given "imports" [
    .choice ["combine_imports"]
      [line "import \x7b", forEach "imports" many, line "\x7d from './';"]
      [forEach "imports" one]]

/-- The imports of models by their names. -/
def nameImports : Part :=
  modelImports
    [.text "\t", key "name", line ","]
    [.text "import \x7b ", key "name", .text " \x7d from './", key "name", line "';"]

/-- The imports of models by their names and the functions that revive them. -/
def revivingImports : Part :=
  modelImports
    [.text "\t", key "name", line ",",
      given "constructible" [.text "\t", key "name", line "_fromJsonObj,"]]
    [.text "import \x7b ", key "name",
      given "constructible" [.text ", ", key "name", .text "_fromJsonObj"],
      .text " \x7d from './", key "name", line "';"]

/-- The base that a type extends, if it has one. -/
def extendsBase : Part :=
  given "base" [.text " extends ", key "base"]

/-- The groups of a service; `result` is what methods return their type in. -/
def serviceGroups (result : String) : Part :=
  forEach "groups" [
    .text "\t", key "name", line " = \x7b",
    forEach "methods" [
      given "error" [.text "\t\t// ", key "error", line ""],
      .text "\t\t", key "name", .text ": (", key "parameters", .text ("): " ++ result ++ "<"),
      key "return_type", .text "> => this.http.", key "call", line ","],
    line "\t\x7d;"]

/-- The path of a service. -/
def apiPathField : List Part :=
  [.text "\tapiRelativePath: string = '", key "api_relative_path", line "';", line ""]

/-! ## Both dialects -/

/-- An enumeration. -/
def enumeration : Template := [
  .text "export enum ", key "name", line " \x7b",
  forEach "values" [.text "\t", key "name", .text " = ", key "value", line ","],
  line "\x7d"]

/-- The list of exports. -/
def index : Template := [
  forEach "entries" [.text "export * from './", .value [], line "';"]]

/-! ## Classes and observables -/

/-- The constructor of a class. -/
def angularConstructor : List Part := [
  line "",
  line "\tpublic constructor(",
  .text "\t\tfields?: Partial<", key "name", line ">) \x7b",
  line "",
  given "base" [line "\t\tsuper();"],
  line "\t\tif (fields) \x7b",
  forEach "hydrations" [.text "\t\t\t", .value [], line ""],
  line "\t\t\tObject.assign(this, fields);",
  line "\t\t\x7d",
  line "\t\x7d"]

/-- A class. -/
def angularClass : Template := [
  momentImport,
  nameImports,
  given "has_header" [line ""],
  .text "export ", given "is_abstract" [.text "abstract "], .text "class ", key "name",
  extendsBase, line " \x7b",
  forEach "constants" [
    .text "\tpublic static readonly ", key "name", .text ": ", key "type_name", .text " = ",
    key "value", line ";"],
  given "constants" [line ""],
  forEach "properties" [
    .text "\tpublic ", key "name", .text ": ", key "type_name",
    given "initializer" [.text " = ", key "initializer"], line ";"],
  .choice ["is_abstract"] [] angularConstructor,
  line "\x7d"]

/-- The text of an error with the status of its response. -/
def errorStatus (error : String) : Part :=
  line ("\t\t\terrMsg = \x60$\x7berror.status\x7d$\x7bhdr ? ' - ' + hdr : ''\x7d - "
    ++ "$\x7berror.statusText || ''\x7d $\x7b" ++ error ++ "\x7d\x60;")

/-- What a handler of errors does when they are no responses. -/
def errorMessage : List Part := [
  line "\t\t\x7d else \x7b",
  line "\t\t\terrMsg = error.message ? error.message : error.toString();",
  line "\t\t\x7d"]

/-- The text of an error of the legacy module. -/
def legacyErrorText : List Part :=
  [line "\t\tif (error instanceof Response) \x7b",
    line "\t\t\tconst hdr = error.headers.get('ExceptionMessage');",
    line "\t\t\tconst body = error.json() || '';",
    line "\t\t\tconst err = body.error || JSON.stringify(body);",
    errorStatus "err"] ++ errorMessage

/-- The text of an error of the client module. -/
def clientErrorText : List Part :=
  [line "\t\tif (error instanceof HttpErrorResponse) \x7b",
    line "\t\t\tconst hdr = error.headers.get('ExceptionMessage');",
    errorStatus "error.error"] ++ errorMessage

/-- The handler of errors. -/
def errorHandler : List Part := [
  .choice ["legacy_http"]
    [line "\tprivate handleError(error: Response | any) \x7b"]
    [line "\tprivate handleError(error: HttpErrorResponse | any) \x7b"],
  .choice ["handle_errors"]
    [line "\t\tlet errMsg: string;",
      .choice ["legacy_http"] legacyErrorText clientErrorText,
      line "\t\tconsole.error(errMsg);",
      line "\t\treturn throwError(errMsg);"]
    [line "\t\treturn throwError(error);"],
  line "\t\x7d"]

/-- A service of observables. -/
def angularService : Template := [
  line "// tslint:disable:max-line-length",
  line "// tslint:disable:member-ordering",
  line "import \x7b Injectable \x7d from '@angular/core';",
  .choice ["legacy_http"]
    [line "import \x7b Http, Response \x7d from '@angular/http';"]
    [line "import \x7b HttpClient, HttpErrorResponse \x7d from '@angular/common/http';"],
  line "import \x7b Observable, throwError \x7d from 'rxjs';",
  line "import \x7b map, catchError \x7d from 'rxjs/operators';",
  momentImport,
  nameImports,
  line "",
  line "@Injectable()",
  line "export class DataService \x7b",
  .choice ["legacy_http"]
    [line "\tconstructor(private http: Http) \x7b\x7d"]
    [line "\tconstructor(private http: HttpClient) \x7b\x7d"],
  line ""] ++ apiPathField ++ [serviceGroups "Observable", line ""] ++ errorHandler ++ [line "\x7d"]

/-! ## Interfaces and promises -/

/-- An interface with the function that revives it. -/
def reactInterface : Template := [
  momentImport,
  revivingImports,
  given "has_header" [line ""],
  .text "export interface ", key "name", extendsBase, line " \x7b",
  forEach "properties" [.text "\t", key "name", .text ": ", key "type_name", line ";"],
  line "\x7d",
  given "factory" [
    line "",
    .text "export function ", key "name", .text "_fromJsonObj(obj: any): ", key "name",
    line " \x7b",
    given "base_factory" [.text "\tobj = ", key "base_factory", line "_fromJsonObj(obj);"],
    line "\treturn \x7b",
    .text "\t\t...obj", forEach "segments" [.text ",\n\t\t", .value []], line "",
    line "\t\x7d;",
    line "\x7d"]]

/-- What a service of promises sends its requests by. -/
def requestInterface : List Part := [
  line "export interface IDataServiceHttpClient \x7b",
  line ("\tget<T>(path: string, params?: \x7b [k: string]: string | number \x7d, "
    ++ "opts?: \x7b responseType: 'text' \x7d): Promise<T>;"),
  line "\tpost<T>(path: string, body: any, opts?: \x7b responseType: 'text' \x7d): Promise<T>;",
  line "\tput<T>(path: string, body: any, opts?: \x7b responseType: 'text' \x7d): Promise<T>;",
  line ("\tdelete<T>(path: string, params?: \x7b [k: string]: string | number \x7d, "
    ++ "opts?: \x7b responseType: 'text' \x7d): Promise<T>;"),
  line "\x7d"]

/-- A service of promises. -/
def reactService : Template := [
  line "// tslint:disable:max-line-length",
  line "// tslint:disable:member-ordering",
  momentImport,
  revivingImports,
  line ""] ++ requestInterface ++ [
  line "",
  line "export class DataService \x7b",
  line "\tconstructor(private http: IDataServiceHttpClient) \x7b\x7d",
  line ""] ++ apiPathField ++ [serviceGroups "Promise", line "\x7d"]

end Template

/-! ## Catalogs -/

/-- Templates by name (`TemplateEngine`). -/
structure Catalog where
  entries : List (String × Template)

namespace Catalog

/-- The templates of generated code. -/
def builtIn : Catalog where
  entries := [
    ("angular/class", Template.angularClass),
    ("angular/service", Template.angularService),
    ("react/interface", Template.reactInterface),
    ("react/service", Template.reactService),
    ("common/enum", Template.enumeration),
    ("common/index", Template.index)]

/-- The template of a name. -/
def find? (c : Catalog) (name : String) : Option Template :=
  (c.entries.find? (·.1 == name)).map (·.2)

/-- A fault of a template as an error. -/
def failure (name : String) (fault : Template.Fault) : Error :=
  .render name fault.message

/-- Adds a written template, or replaces the one of its name (`register_template_string`). -/
def register (c : Catalog) (name source : String) : Except Error Catalog :=
  match Template.parse source with
  | .ok t => .ok ⟨(name, t) :: c.entries⟩
  | .error fault => .error (failure name fault)

/-- Fills the template of a name (`render` of `TemplateEngine`). -/
def render (c : Catalog) (name : String) (context : Json.Value) : Except Error String :=
  match c.find? name with
  | none => .error (failure name (.unknown name))
  | some t => (t.render context).mapError (failure name)

end Catalog

end ApiClient
