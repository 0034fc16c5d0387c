import ApiClient.Generation
import ApiClient.Proofs.Rendering

/-!
# Where instances are made

Generated code makes instances of models in three places: where a class or interface revives its
fields, where the function of an interface calls that of its base, and where the service reads a
response. A class is made an instance of by its constructor, an interface by its function.

Results:
* `Options.revivals`: the statements that revive fields, with the models that they make instances
  of; `map_revivals` tells that these are all statements.
* `exists_of_mem_revivals`, `isWithin_creation_baseCall`, `isWithin_creation_call`: these and the
  other statements make an instance of the model that they are listed with.
* `exists_application_call`: a request calls what makes the instances on the response, or on each of
  its items; `legacyMapper_eq`, `clientPipe_eq` and `promiseThen_eq` give the texts.
* `isWithin_of_mem_revivals`, `isWithin_of_baseFactory`: the statements stand in the file of the
  class.
* `isWithin_constructorHead`: so does the constructor or the function.
* `isWithin_of_mem_methods`: the requests stand in the file of the service.
-/

namespace ApiClient

open Text

/-! ## Dialects -/

namespace Angular

/-- The statements that revive the fields of a class, each with the model that it makes an instance
of. -/
def revivals (v : ModelView) : List (Option String × String) :=
  (v.modelProperties.map fun (p, m) =>
      (some m, hydration p ("new " ++ m ++ "(fields." ++ p ++ ")")))
    ++ ((v.dateProperties false).map fun p => (none, hydration p ("moment(fields." ++ p ++ ")")))
    ++ ((v.dateProperties true).map fun p =>
      (none, hydration p ("moment.utc(fields." ++ p ++ ")")))
    ++ (v.modelArrayProperties.map fun (p, m) =>
      (some m, hydration p ("fields." ++ p ++ ".map(x => new " ++ m ++ "(x))")))

theorem map_revivals (v : ModelView) : (revivals v).map (·.2) = hydrations v := by
  simp [revivals, hydrations, Function.comp_def]

end Angular

namespace React

/-- The members of a revived object, each with the model that it makes an instance of. -/
def revivals (v : ModelView) : List (Option String × String) :=
  ((v.dateProperties false).map fun p => (none, segment p ("moment(obj." ++ p ++ ")")))
    ++ ((v.dateProperties true).map fun p => (none, segment p ("moment.utc(obj." ++ p ++ ")")))
    ++ (v.modelProperties.map fun (p, m) =>
      (some m, segment p (m ++ "_fromJsonObj(obj." ++ p ++ ")")))
    ++ (v.modelArrayProperties.map fun (p, m) =>
      (some m, segment p ("obj." ++ p ++ ".map((x: any) => " ++ m ++ "_fromJsonObj(x))")))

theorem map_revivals (v : ModelView) : (revivals v).map (·.2) = segments v := by
  simp [revivals, segments, Function.comp_def]

/-- The statement in which the function of an interface calls that of its base. -/
def baseCall (base : String) : String :=
  "\tobj = " ++ base ++ "_fromJsonObj(obj);\n"

end React

namespace Options

/-- How code makes an instance of a model. -/
def creation (o : Options) (name : String) : String :=
  match o.dialect with
  | .angular => "new " ++ name ++ "("
  | .react => name ++ "_fromJsonObj("

/-- The beginning of what makes instances in the file of a model. -/
def constructorHead (o : Options) (name : String) : String :=
  match o.dialect with
  | .angular => "\n\tpublic constructor(\n\t\tfields?: Partial<" ++ name ++ ">) \x7b\n"
  | .react => "\nexport function " ++ name ++ "_fromJsonObj(obj: any): " ++ name ++ " \x7b\n"

/-- The statements that revive the fields of a model. -/
def revivals (o : Options) (v : ModelView) : List (Option String × String) :=
  match o.dialect with
  | .angular => Angular.revivals v
  | .react => React.revivals v

/-- The file of a type has these statements. -/
def revives (o : Options) (d : TypeDef) : Bool :=
  match o.dialect with
  | .angular => !d.isAbstract
  | .react => d.isConstructible

/-- The request of a method. -/
def call (o : Options) (m : ServiceMethod) : String :=
  match o.dialect with
  | .angular => if o.httpModule = .legacy then Angular.legacyCall m else Angular.clientCall m
  | .react => React.call m

end Options

/-! ## Calls -/

namespace TypeScript

/-- Code that calls a function on the value of an expression, or on each item of that value. -/
structure Application where
  function : String
  value : String
  /-- The name of an item, if the function is called on each. -/
  item : Option String

namespace Application

def text (a : Application) : String :=
  match a.item with
  | some item => a.value ++ ".map(" ++ item ++ " => " ++ a.function ++ "(" ++ item ++ "))"
  | none => a.function ++ "(" ++ a.value ++ ")"

/-- What the function is called on if the expression has the value `v`. Only an array has items. -/
def arguments (a : Application) (v : Json.Value) : List Json.Value :=
  match a.item, v with
  | some _, .array items => items
  | some _, _ => []
  | none, v => [v]

end Application

/-- The call for a construction; `item` names an item. -/
def Construction.application (c : Construction) (f value item : String) : Application :=
  ⟨f, value, if c.ofItems then some item else none⟩

end TypeScript

theorem TypeDef.isConstructible_iff {d : TypeDef} :
    d.isConstructible = true ↔ d.kind = .classType ∧ d.isAbstract = false := by
  rw [isConstructible, Bool.and_eq_true, decide_eq_true_eq, Bool.not_eq_true']

variable {o : Options} {v : ModelView} {name text content : String}

/-! ## Statements -/

theorem Angular.isWithin_hydration (field value : String) :
    IsWithin value (hydration field value) := by
  change IsWithin value ("if (fields." ++ field ++ ") \x7b fields." ++ field ++ " = " ++ value ++
    "; \x7d")
  exact ((IsWithin.refl value).append_left _).append_right _

theorem React.isWithin_segment (property value : String) :
    IsWithin value (segment property value) :=
  (IsWithin.refl value).append_left _

theorem Angular.exists_of_mem_revivals (h : (some name, text) ∈ Angular.revivals v) :
    ∃ p, (p, name) ∈ v.modelProperties ++ v.modelArrayProperties ∧
      IsWithin ("new " ++ name ++ "(") text := by
  simp only [revivals, List.mem_append, List.mem_map, Prod.mk.injEq, Option.some.injEq,
    reduceCtorEq, false_and, and_false, exists_false, or_false] at h
  rcases h with ⟨⟨p, m⟩, hp, rfl, rfl⟩ | ⟨⟨p, m⟩, hp, rfl, rfl⟩
  · refine ⟨p, List.mem_append_left _ hp, IsWithin.trans ?_ (isWithin_hydration p _)⟩
    exact .of_toList "" ("fields." ++ p ++ ")") (by simp)
  · refine ⟨p, List.mem_append_right _ hp, IsWithin.trans ?_ (isWithin_hydration p _)⟩
    exact .of_toList ("fields." ++ p ++ ".map(x => ") "x))" (by simp)

theorem React.exists_of_mem_revivals (h : (some name, text) ∈ React.revivals v) :
    ∃ p, (p, name) ∈ v.modelProperties ++ v.modelArrayProperties ∧
      IsWithin (name ++ "_fromJsonObj(") text := by
  simp only [revivals, List.mem_append, List.mem_map, Prod.mk.injEq, Option.some.injEq,
    reduceCtorEq, false_and, and_false, exists_false, false_or] at h
  rcases h with ⟨⟨p, m⟩, hp, rfl, rfl⟩ | ⟨⟨p, m⟩, hp, rfl, rfl⟩
  · refine ⟨p, List.mem_append_left _ hp, IsWithin.trans ?_ (isWithin_segment p _)⟩
    exact .of_toList "" ("obj." ++ p ++ ")") (by simp)
  · refine ⟨p, List.mem_append_right _ hp, IsWithin.trans ?_ (isWithin_segment p _)⟩
    exact .of_toList ("obj." ++ p ++ ".map((x: any) => ") "x))" (by simp)

/-- A statement that is listed with a model makes an instance of it, for a property of that type. -/
theorem exists_of_mem_revivals (h : (some name, text) ∈ o.revivals v) :
    ∃ p, (p, name) ∈ v.modelProperties ++ v.modelArrayProperties ∧
      IsWithin (o.creation name) text := by
  unfold Options.revivals at h
  unfold Options.creation
  split at h
  · exact Angular.exists_of_mem_revivals h
  · exact React.exists_of_mem_revivals h

theorem isWithin_creation_baseCall (ho : o.dialect = .react) :
    IsWithin (o.creation name) (React.baseCall name) := by
  rw [Options.creation, ho]
  change IsWithin (name ++ "_fromJsonObj(") ("\tobj = " ++ name ++ "_fromJsonObj(obj);\n")
  exact .of_toList "\tobj = " "obj);\n" (by simp)

/-! ## Requests -/

namespace TypeScript

variable {c : Construction}

theorem Application.isWithin_text (a : Application) : IsWithin (a.function ++ "(") a.text := by
  obtain ⟨f, value, _ | item⟩ := a
  · change IsWithin (f ++ "(") (f ++ "(" ++ value ++ ")")
    exact .of_toList "" (value ++ ")") (by simp)
  · change IsWithin (f ++ "(") (value ++ ".map(" ++ item ++ " => " ++ f ++ "(" ++ item ++ "))")
    exact .of_toList (value ++ ".map(" ++ item ++ " => ") (item ++ "))") (by simp)

theorem legacyMapper_eq (c : Construction) :
    legacyMapper (some c) = (c.application ("new " ++ c.name) "res.json()" "r").text := by
  obtain ⟨name, _ | _⟩ := c
  · change "new " ++ name ++ "(res.json())" = "new " ++ name ++ "(" ++ "res.json()" ++ ")"
    exact String.toList_inj.1 (by simp)
  · change "res.json().map(r => new " ++ name ++ "(r))" =
      "res.json()" ++ ".map(" ++ "r" ++ " => " ++ ("new " ++ name) ++ "(" ++ "r" ++ "))"
    exact String.toList_inj.1 (by simp)

/-- Here what is no array gives `null`. -/
theorem clientPipe_eq (c : Construction) :
    clientPipe (some c) =
      "pipe(map(value => " ++ (if c.ofItems then "Array.isArray(value) ? " else "") ++
        (c.application ("new " ++ c.name) "value" "x").text ++
        ((if c.ofItems then " : null" else "") ++ "))." ++ "pipe(catchError(this.handleError))") := by
  obtain ⟨name, _ | _⟩ := c
  · change "pipe(map(value => new " ++ name ++ "(value)))." ++ "pipe(catchError(this.handleError))" =
      "pipe(map(value => " ++ "" ++ ("new " ++ name ++ "(" ++ "value" ++ ")") ++
        ("" ++ "))." ++ "pipe(catchError(this.handleError))")
    exact String.toList_inj.1 (by simp)
  · change "pipe(map(value => Array.isArray(value) ? value.map(x => new " ++ name ++
        "(x)) : null))." ++ "pipe(catchError(this.handleError))" =
      "pipe(map(value => " ++ "Array.isArray(value) ? " ++
        ("value" ++ ".map(" ++ "x" ++ " => " ++ ("new " ++ name) ++ "(" ++ "x" ++ "))") ++
        (" : null" ++ "))." ++ "pipe(catchError(this.handleError))")
    exact String.toList_inj.1 (by simp)

theorem promiseThen_eq (c : Construction) :
    promiseThen (some c) =
      ".then(value => " ++ (c.application (c.name ++ "_fromJsonObj") "value" "x").text ++ ")" := by
  obtain ⟨name, _ | _⟩ := c
  · change ".then(value => " ++ name ++ "_fromJsonObj(value))" =
      ".then(value => " ++ (name ++ "_fromJsonObj" ++ "(" ++ "value" ++ ")") ++ ")"
    exact String.toList_inj.1 (by simp)
  · change ".then(value => value.map(x => " ++ name ++ "_fromJsonObj(x)))" =
      ".then(value => " ++
        ("value" ++ ".map(" ++ "x" ++ " => " ++ (name ++ "_fromJsonObj") ++ "(" ++ "x" ++ "))") ++ ")"
    exact String.toList_inj.1 (by simp)

end TypeScript

/-- A request whose response is made an instance of a model calls what makes it. -/
theorem exists_application_call {m : ServiceMethod} {c : TypeScript.Construction}
    (h : m.construction = some c) : ∃ f value item, f ++ "(" = o.creation c.name ∧
      IsWithin (c.application f value item).text (o.call m) := by
  unfold Options.creation Options.call
  split
  · refine ⟨"new " ++ c.name, ?_⟩
    split
    · refine ⟨"res.json()", "r", rfl, ?_⟩
      rw [Angular.legacyCall, h, TypeScript.legacyMapper_eq]
      exact ((IsWithin.refl _).append_left _).append_right _
    · refine ⟨"value", "x", rfl, ?_⟩
      rw [Angular.clientCall, h, TypeScript.clientPipe_eq]
      exact (((IsWithin.refl _).append_left _).append_right _).append_left _
  · refine ⟨c.name ++ "_fromJsonObj", "value", "x", String.toList_inj.1 (by simp), ?_⟩
    rw [React.call, h, TypeScript.promiseThen_eq]
    exact (((IsWithin.refl _).append_left _).append_right _).append_left _

theorem isWithin_creation_call {m : ServiceMethod} {c : TypeScript.Construction}
    (h : m.construction = some c) : IsWithin (o.creation c.name) (o.call m) := by
  obtain ⟨f, value, item, hf, hcall⟩ := exists_application_call (o := o) h
  have hwithin := (c.application f value item).isWithin_text
  rw [← hf]
  exact hwithin.trans hcall

/-! ## Files of models -/

namespace Template

/-- The statement that calls the function of the base. -/
def reactBaseCall : List Part := [.text "\tobj = ", key "base_factory", line "_fromJsonObj(obj);"]

/-- The beginning of the function of an interface. -/
def reactFactoryHead : List Part := [
  line "",
  .text "export function ", key "name", .text "_fromJsonObj(obj: any): ", key "name",
  line " \x7b"]

/-- The function of an interface. -/
def reactFactory : List Part := reactFactoryHead ++ [
  given "base_factory" reactBaseCall,
  line "\treturn \x7b",
  .text "\t\t...obj", forEach "segments" [.text ",\n\t\t", .value []], line "",
  line "\t\x7d;",
  line "\x7d"]

/-- The beginning of the constructor of a class. -/
def angularConstructorHead : List Part := [
  line "",
  line "\tpublic constructor(",
  .text "\t\tfields?: Partial<", key "name", line ">) \x7b"]

/-- The line of a method in the file of the service. -/
def methodLine (result : String) : List Part := [
  given "error" [.text "\t\t// ", key "error", line ""],
  .text "\t\t", key "name", .text ": (", key "parameters", .text ("): " ++ result ++ "<"),
  key "return_type", .text "> => this.http.", key "call", line ","]

theorem choice_mem_angularClass : .choice ["is_abstract"] [] angularConstructor ∈ angularClass := by
  simp [angularClass]

theorem given_mem_reactInterface : given "factory" reactFactory ∈ reactInterface := by
  simp [reactInterface, reactFactory, reactFactoryHead, reactBaseCall]

theorem angularConstructorHead_isInfix : angularConstructorHead <:+: angularConstructor :=
  ⟨[], _, rfl⟩

theorem reactFactoryHead_isInfix : reactFactoryHead <:+: reactFactory :=
  ⟨[], _, rfl⟩

theorem given_mem_reactFactory : given "base_factory" reactBaseCall ∈ reactFactory := by
  simp [reactFactory]

end Template

open Template

theorem Angular.render_eq_ok (ho : o.dialect = .angular) : v.render o = .ok content ↔
    renderParts angularClass (classContext o v).json = .ok content := by
  rw [ModelView.render, ModelView.context, ho]
  exact Catalog.render_eq_ok rfl

theorem React.render_eq_ok (ho : o.dialect = .react) : v.render o = .ok content ↔
    renderParts reactInterface (interfaceContext o v).json = .ok content := by
  rw [ModelView.render, ModelView.context, ho]
  exact Catalog.render_eq_ok rfl

/-- The file of a class that is not abstract has a constructor. -/
theorem Angular.exists_constructor (ho : o.dialect = .angular)
    (habstract : v.definition.isAbstract = false) (h : v.render o = .ok content) :
    ∃ a, renderParts angularConstructor (classContext o v).json = .ok a ∧ IsWithin a content := by
  obtain ⟨a, ha, hwithin⟩ := exists_of_choice choice_mem_angularClass ((render_eq_ok ho).1 h)
  have hholds : holds ["is_abstract"] (classContext o v).json = v.definition.isAbstract := rfl
  rw [hholds, habstract, if_neg Bool.false_ne_true] at ha
  exact ⟨a, ha, hwithin⟩

/-- The file of an interface has a function if instances can be made. -/
theorem React.exists_factory (ho : o.dialect = .react)
    (hconstructible : v.definition.isConstructible = true) (h : v.render o = .ok content) :
    ∃ a, renderParts reactFactory (interfaceContext o v).json = .ok a ∧ IsWithin a content :=
  exists_of_given given_mem_reactInterface hconstructible ((render_eq_ok ho).1 h)

theorem Angular.isWithin_of_mem_hydrations (ho : o.dialect = .angular)
    (habstract : v.definition.isAbstract = false) (h : v.render o = .ok content)
    (htext : text ∈ hydrations v) : IsWithin text content := by
  obtain ⟨a, ha, hwithin⟩ := exists_constructor ho habstract h
  have hmem : forEach "hydrations" [.text "\t\t\t", .value [], line ""] ∈ angularConstructor := by
    simp [angularConstructor]
  obtain ⟨b, hb, hb'⟩ := exists_of_each hmem rfl
    (List.mem_map_of_mem (f := Json.Value.string) htext) ha
  have hmem : Part.value [] ∈ [.text "\t\t\t", .value [], line ""] := by simp
  exact ((exists_of_value hmem rfl hb).trans hb').trans hwithin

theorem React.isWithin_of_mem_segments (ho : o.dialect = .react)
    (hconstructible : v.definition.isConstructible = true) (h : v.render o = .ok content)
    (htext : text ∈ segments v) : IsWithin text content := by
  obtain ⟨a, ha, hwithin⟩ := exists_factory ho hconstructible h
  have hmem : forEach "segments" [.text ",\n\t\t", .value []] ∈ reactFactory := by
    simp [reactFactory]
  obtain ⟨b, hb, hb'⟩ := exists_of_each hmem rfl
    (List.mem_map_of_mem (f := Json.Value.string) htext) ha
  have hmem : Part.value [] ∈ [.text ",\n\t\t", .value []] := by simp
  exact ((exists_of_value hmem rfl hb).trans hb').trans hwithin

/-- The statements that revive fields stand in the file of the class. -/
theorem isWithin_of_mem_revivals {made : Option String} (h : v.render o = .ok content)
    (hrevives : o.revives v.definition = true) (hp : (made, text) ∈ o.revivals v) :
    IsWithin text content := by
  unfold Options.revives at hrevives
  unfold Options.revivals at hp
  cases ho : o.dialect with
  | angular =>
    simp only [ho, Bool.not_eq_true'] at hrevives hp
    exact Angular.isWithin_of_mem_hydrations ho hrevives h
      (Angular.map_revivals v ▸ List.mem_map_of_mem hp)
  | react =>
    simp only [ho] at hrevives hp
    exact React.isWithin_of_mem_segments ho hrevives h
      (React.map_revivals v ▸ List.mem_map_of_mem hp)

/-- So does the call of the function of the base. A base without a name is none to a template. -/
theorem isWithin_of_baseFactory (ho : o.dialect = .react)
    (hconstructible : v.definition.isConstructible = true) (h : v.render o = .ok content)
    (hbase : (React.interfaceContext o v).baseFactory = some name) (hname : name ≠ "") :
    IsWithin (React.baseCall name) content := by
  obtain ⟨a, ha, hwithin⟩ := React.exists_factory ho hconstructible h
  have hfind : find? ["base_factory"] (React.interfaceContext o v).json = some (.string name) := by
    change some (Json.Value.string? (React.interfaceContext o v).baseFactory) = _
    rw [hbase]
    rfl
  have hholds : holds ["base_factory"] (React.interfaceContext o v).json = true := by
    rw [holds, hfind]
    simpa [Template.isTrue] using hname
  obtain ⟨b, hb, hb'⟩ := exists_of_given given_mem_reactFactory hholds ha
  have htext : renderParts reactBaseCall (React.interfaceContext o v).json =
      .ok (React.baseCall name) := by
    simp [reactBaseCall, renderParts, renderPart, key, line, hfind, display, bind, Except.bind,
      React.baseCall, String.append_assoc]
  obtain rfl := Except.ok.inj (htext.symm.trans hb)
  exact hb'.trans hwithin

theorem Angular.isWithin_constructorHead (ho : o.dialect = .angular)
    (habstract : v.definition.isAbstract = false) (h : v.render o = .ok content) :
    IsWithin ("\n\tpublic constructor(\n\t\tfields?: Partial<" ++ v.definition.name ++ ">) \x7b\n")
      content := by
  obtain ⟨a, ha, hwithin⟩ := exists_constructor ho habstract h
  obtain ⟨b, hb, hb'⟩ := exists_of_infix angularConstructorHead_isInfix ha
  have htext : renderParts angularConstructorHead (classContext o v).json =
      .ok ("" ++ "\n" ++ ("\tpublic constructor(" ++ "\n" ++
        ("\t\tfields?: Partial<" ++ (v.definition.name ++ (">) \x7b" ++ "\n" ++ ""))))) := rfl
  obtain rfl := Except.ok.inj (htext.symm.trans hb)
  refine IsWithin.trans ?_ (hb'.trans hwithin)
  exact .of_toList "" "" (by simp)

theorem React.isWithin_constructorHead (ho : o.dialect = .react)
    (hconstructible : v.definition.isConstructible = true) (h : v.render o = .ok content) :
    IsWithin ("\nexport function " ++ v.definition.name ++ "_fromJsonObj(obj: any): " ++
      v.definition.name ++ " \x7b\n") content := by
  obtain ⟨a, ha, hwithin⟩ := exists_factory ho hconstructible h
  obtain ⟨b, hb, hb'⟩ := exists_of_infix reactFactoryHead_isInfix ha
  have htext : renderParts reactFactoryHead (interfaceContext o v).json =
      .ok ("" ++ "\n" ++ ("export function " ++ (v.definition.name ++
        ("_fromJsonObj(obj: any): " ++ (v.definition.name ++ (" \x7b" ++ "\n" ++ "")))))) := rfl
  obtain rfl := Except.ok.inj (htext.symm.trans hb)
  refine IsWithin.trans ?_ (hb'.trans hwithin)
  exact .of_toList "" "" (by simp)

/-- The constructor of a class or the function of an interface stands in its file. -/
theorem isWithin_constructorHead (hconstructible : v.definition.isConstructible = true)
    (h : v.render o = .ok content) :
    IsWithin (o.constructorHead v.definition.name) content := by
  unfold Options.constructorHead
  cases ho : o.dialect with
  | angular =>
    exact Angular.isWithin_constructorHead ho (TypeDef.isConstructible_iff.1 hconstructible).2 h
  | react => exact React.isWithin_constructorHead ho hconstructible h

/-! ## The file of the service -/

theorem serviceGroups_mem_angularService : serviceGroups "Observable" ∈ angularService :=
  List.mem_append_left _ (List.mem_append_left _ (List.mem_append_right _ (.head _)))

theorem serviceGroups_mem_reactService : serviceGroups "Promise" ∈ reactService :=
  List.mem_append_right _ (.head _)

/-- The requests of all methods stand in the text of the groups. -/
theorem isWithin_of_serviceGroups {result : String} {ps : Template} {context : Json.Value}
    (hmem : serviceGroups result ∈ ps) {groups : List GroupContext}
    (hgroups : find? ["groups"] context = some (.array (groups.map GroupContext.json)))
    {g : GroupContext} (hg : g ∈ groups) {m : MethodContext} (hm : m ∈ g.methods)
    (h : renderParts ps context = .ok content) : IsWithin m.call content := by
  obtain ⟨a, ha, hwithin⟩ := exists_of_each hmem hgroups (List.mem_map_of_mem hg) h
  have hmethods : forEach "methods" (methodLine result) ∈ [
      .text "\t", key "name", line " = \x7b", forEach "methods" (methodLine result),
      line "\t\x7d;"] := by
    simp
  obtain ⟨b, hb, hb'⟩ := exists_of_each hmethods rfl (List.mem_map_of_mem hm) ha
  have hcall : key "call" ∈ methodLine result := by
    simp [methodLine]
  exact ((exists_of_value hcall rfl hb).trans hb').trans hwithin

variable {s : Service} {apiPath : String}

theorem Angular.renderService_eq_ok (ho : o.dialect = .angular) :
    s.render o apiPath = .ok content ↔
      renderParts angularService (serviceContext o s apiPath).json = .ok content := by
  rw [Service.render, Service.context, ho]
  exact Catalog.render_eq_ok rfl

theorem React.renderService_eq_ok (ho : o.dialect = .react) :
    s.render o apiPath = .ok content ↔
      renderParts reactService (serviceContext o s apiPath).json = .ok content := by
  rw [Service.render, Service.context, ho]
  exact Catalog.render_eq_ok rfl

/-- The requests of all methods stand in the file of the service. -/
theorem isWithin_of_mem_methods {g : ServiceGroup} (hg : g ∈ s.groups) {m : ServiceMethod}
    (hm : m ∈ g.methods) (h : s.render o apiPath = .ok content) : IsWithin (o.call m) content := by
  have hmethod : ∀ call : ServiceMethod → String,
      ServiceMethod.context g.controller call m ∈ (ServiceGroup.context call g).methods :=
    fun _ => List.mem_map_of_mem hm
  unfold Options.call
  cases ho : o.dialect with
  | angular =>
    have hgroup : ServiceGroup.context
        (if o.httpModule = .legacy then Angular.legacyCall else Angular.clientCall) g ∈
          (Angular.serviceContext o s apiPath).groups := List.mem_map_of_mem hg
    have hcall := isWithin_of_serviceGroups serviceGroups_mem_angularService rfl hgroup (hmethod _)
      ((Angular.renderService_eq_ok ho).1 h)
    change IsWithin ((if o.httpModule = .legacy then Angular.legacyCall else Angular.clientCall) m)
      content at hcall
    rwa [ite_apply] at hcall
  | react =>
    have hgroup : ServiceGroup.context React.call g ∈ (React.serviceContext o s apiPath).groups :=
      List.mem_map_of_mem hg
    have hcall := isWithin_of_serviceGroups serviceGroups_mem_reactService rfl hgroup (hmethod React.call)
      ((React.renderService_eq_ok ho).1 h)
    exact hcall

end ApiClient
