import ApiClient.ModelView
import ApiClient.Operation
import ApiClient.TypeScript.Url

/-!
# Services

A `Service` is what clients call: a group for each controller, and in it a method for each operation
that has a verb and mentions no excluded type, by name.

* `Registry.service`: the service of controllers.
* `ServiceMethod.url`, `body`: what a request sends; with a body the first parameter, else all of
  them in the query.
* `ServiceMethod.repeated`: an operation of the group has the same name up to case and comes before.
-/

namespace ApiClient

/-- A method of a service (`FacadeMethod`). -/
structure ServiceMethod where
  name : String
  operation : String
  verb : HttpVerb
  parameters : List (String × MappedType)
  returns : MappedType
  construction : Option TypeScript.Construction
  url : String
  body : String
  repeated : Bool
  deriving DecidableEq, Repr

/-- The parameters of a method with their types. -/
def ServiceMethod.signature (m : ServiceMethod) : String :=
  ", ".intercalate (m.parameters.map fun p => p.1 ++ ": " ++ p.2.display)

/-- The types that a method mentions. -/
def ServiceMethod.types (m : ServiceMethod) : List MappedType :=
  m.parameters.map (·.2) ++ [m.returns]

/-- The methods of a controller (`FacadeGroup`). -/
structure ServiceGroup where
  name : String
  controller : String
  methods : List ServiceMethod
  deriving DecidableEq, Repr

/-- What clients call (`Facade`). -/
structure Service where
  groups : List ServiceGroup
  imports : List Import
  usesMoment : Bool
  deriving DecidableEq, Repr

/-- The number of methods (`method_count`). -/
def Service.size (s : Service) : Nat :=
  (s.groups.flatMap (·.methods)).length

namespace Registry

/-- The expression for the path below which all operations are served. -/
def apiPathExpression : String :=
  TypeScript.interpolate "this.apiRelativePath"

/-- The method for an operation, if it has a verb and mentions no excluded type (`build_method`). -/
def serviceMethod? (r : Registry) (group : String) (o : Operation) (repeated : Bool) :
    Option ServiceMethod :=
  match o.verb with
  | none => none
  | some verb =>
    let parameters := o.parameters.map fun p => (p.name, r.map false p.type)
    let returns := o.returns.elim .any (r.map false)
    if returns.isExcluded || parameters.any (·.2.isExcluded) then none
    else
      let uri := TypeScript.combineUri [apiPathExpression, group, o.name]
      some {
        name := Text.camelize o.name
        operation := o.name
        verb
        parameters
        returns
        construction := TypeScript.Construction.of? r returns
        url := if verb.sendsBody then uri else TypeScript.withQuery uri parameters
        body :=
          if verb.sendsBody then ", " ++ (parameters.head?.elim "null" (·.1)) else ""
        repeated }

end Registry

/-! ## The loop over controllers -/

/-- The service after a type that a signature mentions: it imports the model of the type, and needs
dates if the type is one. -/
def Service.note (r : Registry) (s : Service) (t : MappedType) : Service :=
  { s with
    imports := (r.importOf? t).elim s.imports (·.insert s.imports)
    usesMoment := s.usesMoment || t.mentionsDate }

/-- What the loop over the operations of a controller has come to: the service, the names of all
operations so far in lower case, and their methods. -/
structure ServiceLoop where
  service : Service
  seen : List String
  methods : List ServiceMethod

/-- One operation. Its name is remembered also if there is no method for it. -/
def ServiceLoop.step (r : Registry) (group : String) (l : ServiceLoop) (o : Operation) :
    ServiceLoop :=
  let name := Text.lower o.name
  let seen := name :: l.seen
  match r.serviceMethod? group o (l.seen.contains name) with
  | none => { l with seen }
  | some m =>
    { service := m.types.foldl (Service.note r) l.service
      seen
      methods := l.methods ++ [m] }

/-- The service with the group for one more controller; its operations are gone through by name. -/
def Service.addController (r : Registry) (s : Service) (c : Controller) : Service :=
  let operations := Text.sortByText Operation.name c.operations
  let l := operations.foldl (ServiceLoop.step r c.group) ⟨s, [], []⟩
  { l.service with groups := l.service.groups ++ [⟨Text.camelize c.group, c.name, l.methods⟩] }

/-- The service of controllers (`build` of `Facade`). In the end the imports are listed by name. -/
def Registry.service (r : Registry) (controllers : List Controller) : Service :=
  let s := controllers.foldl (Service.addController r) ⟨[], [], false⟩
  { s with imports := Text.sortByText Import.name s.imports }

end ApiClient
