import ApiClient.Marker
import ApiClient.Registry

/-!
# Operations

An operation is a method of a controller that clients call over HTTP.

* `HttpVerb.classify`: the verb of a method, by its markers or by the beginning of its name.
* `groupName`: the group of a controller, its name without the ending `Controller`.
* `Controller`, `Operation`, `Parameter`: what a client sees of them.
-/

namespace ApiClient

/-- The verb of an operation. -/
inductive HttpVerb where
  | get
  | put
  | post
  | delete
  deriving DecidableEq, Repr

namespace HttpVerb

/-- The verb in lower case. -/
def keyword : HttpVerb → String
  | get => "get"
  | put => "put"
  | post => "post"
  | delete => "delete"

/-- Only `post` sends a body (`sends_body`). -/
def sendsBody : HttpVerb → Bool
  | post => true
  | _ => false

/-- The markers that name a verb, the first of them in a set decides. -/
def byMarker : List (Marker × HttpVerb) :=
  [(.httpGet, get), (.httpPut, put), (.httpPost, post), (.httpDelete, delete)]

/-- The beginnings of names that tell the verb. -/
def byStart : List (String × HttpVerb) :=
  [("Get", get), ("Put", put), ("Post", post), ("Update", post), ("Delete", delete)]

/-- The verb of a method: a marker decides, or else the beginning of its name (`classify` of
`HttpVerb`). -/
def classify (name : String) (markers : MarkerSet) : Option HttpVerb :=
  match byMarker.find? fun m => markers.contains m.1 with
  | some m => some m.2
  | none => (byStart.find? fun s => Text.beginsWith s.1 name).map (·.2)

end HttpVerb

/-- A parameter of an operation. -/
structure Parameter where
  name : String
  type : TypeRef

/-- A method that clients call. -/
structure Operation where
  name : String
  /-- Absent when the method tells none. -/
  verb : Option HttpVerb
  group : String
  parameters : List Parameter
  /-- Absent when the method returns nothing. -/
  returns : Option TypeRef

/-- A group of operations. -/
structure Controller where
  id : TypeId
  name : String
  group : String
  operations : List Operation

/-- The group of a controller: its name without the ending `Controller`, unless that leaves nothing
(`group_name`). -/
def groupName (typeName : String) : String :=
  match Text.dropSuffix? "Controller".toList typeName.toList with
  | none | some [] => typeName
  | some stem => String.ofList stem

end ApiClient
