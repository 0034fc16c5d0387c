import ApiClient.Mapping

/-!
# Responses

What generated code does with the response to a request.

* `Construction`: the class that a response is made an instance of, or that its items are.
* `clientPipe`, `legacyMapper`, `promiseThen`: the steps after a request, by the way it is sent.
* `typeArgument`, `closeCall`: a primitive comes as text and is converted.
-/

namespace ApiClient

/-- Instances can be made of the type: a class that is not abstract (`is_constructible`). -/
def TypeDef.isConstructible (d : TypeDef) : Bool :=
  d.kind = .classType && !d.isAbstract

/-- Instances can be made of a declared type. -/
def Registry.isConstructible (r : Registry) (id : TypeId) : Bool :=
  (r.get? id).any TypeDef.isConstructible

namespace TypeScript

/-- The class that a response, or each item of it, is made an instance of. -/
structure Construction where
  name : String
  ofItems : Bool
  deriving DecidableEq, Repr

/-- The construction for a type, if its model can be instantiated (`of` of `Construction`). -/
def Construction.of? (r : Registry) (t : MappedType) : Option Construction :=
  match t.model? with
  | some (id, name) => if r.isConstructible id then some ⟨name, t.isArray⟩ else none
  | none => none

/-- The steps after a request that gives an observable (`client_pipe`). -/
def clientPipe (c : Option Construction) : String :=
  let construct :=
    match c with
    | some ⟨name, true⟩ =>
      "pipe(map(value => Array.isArray(value) ? value.map(x => new " ++ name ++ "(x)) : null))."
    | some ⟨name, false⟩ => "pipe(map(value => new " ++ name ++ "(value)))."
    | none => ""
  construct ++ "pipe(catchError(this.handleError))"

/-- The body of a response of the legacy module (`legacy_mapper`). -/
def legacyMapper : Option Construction → String
  | some ⟨name, true⟩ => "res.json().map(r => new " ++ name ++ "(r))"
  | some ⟨name, false⟩ => "new " ++ name ++ "(res.json())"
  | none => "res.json()"

/-- The step after a request that gives a promise (`promise_then`). -/
def promiseThen : Option Construction → String
  | some ⟨name, true⟩ => ".then(value => value.map(x => " ++ name ++ "_fromJsonObj(x)))"
  | some ⟨name, false⟩ => ".then(value => " ++ name ++ "_fromJsonObj(value))"
  | none => ""

/-- The primitive that comes as text (`text_response`). -/
def textResponse : MappedType → Option Primitive
  | .primitive kind => some kind
  | _ => none

/-- The conversion of a text to a primitive. -/
def conversion : Primitive → String
  | .boolean => "JSON.parse(x) === true"
  | .number => "Number(x)"
  | .string => "x"

/-- The type argument of a request; one for text has none (`type_argument`). -/
def typeArgument (t : MappedType) : String :=
  match textResponse t with
  | some _ => ""
  | none => "<" ++ t.display ++ ">"

/-- The end of a request (`close_call`). -/
def closeCall (t : MappedType) : String :=
  match textResponse t with
  | some kind =>
    ", \x7b responseType: 'text' \x7d).pipe(map( x => " ++ conversion kind ++ "))"
  | none => ")"

end TypeScript

end ApiClient
