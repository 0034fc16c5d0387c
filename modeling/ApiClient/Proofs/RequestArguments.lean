import ApiClient.Proofs.Exclusion
import ApiClient.Proofs.Revivals
import ApiClient.Proofs.SuppliedContexts

/-!
# Arguments of requests

A service of promises sends its requests by an interface that its file declares, with a method for
each verb. The methods for `post` and `put` take a body that must not be left out. The call of a
method hands over the address of the request, and a body if its verb sends one: `post` does, `put`
does not.

Results:
* `interfaceLines`: what the interface declares, from the parameters of its methods;
  `isWithin_interface` tells that the file has it.
* `Accepts`: arguments that parameters take; `IsRequest`: the interface accepts a request as it is
  written.
* `isRequest_iff`: every request is accepted but those of `put`.
* `not_isRequest_putReset`: some request is not.
-/

namespace ApiClient

open Text

namespace React

/-! ## The interface -/

/-- A parameter of a method of the interface. -/
structure FormalParameter where
  name : String
  isOptional : Bool
  type : String
  deriving DecidableEq, Repr

/-- How a parameter is declared. -/
def FormalParameter.text (p : FormalParameter) : String :=
  p.name ++ (if p.isOptional then "?: " else ": ") ++ p.type

/-- The parameters of the method for a verb. -/
def formalParameters : HttpVerb → List FormalParameter
  | .get | .delete => [
    ⟨"path", false, "string"⟩,
    ⟨"params", true, "\x7b [k: string]: string | number \x7d"⟩,
    ⟨"opts", true, "\x7b responseType: 'text' \x7d"⟩]
  | .post | .put => [
    ⟨"path", false, "string"⟩,
    ⟨"body", false, "any"⟩,
    ⟨"opts", true, "\x7b responseType: 'text' \x7d"⟩]

/-- The method for a verb cannot be called without a body. -/
def RequiresBody (verb : HttpVerb) : Prop :=
  ∃ p ∈ formalParameters verb, p.name = "body" ∧ p.isOptional = false

/-- How the method for a verb is declared. -/
def declaration (verb : HttpVerb) : String :=
  "\t" ++ verb.keyword ++ "<T>("
    ++ ", ".intercalate ((formalParameters verb).map FormalParameter.text) ++ "): Promise<T>;\n"

/-- How the interface is declared, line by line. -/
def interfaceLines : List String :=
  "export interface IDataServiceHttpClient \x7b\n"
    :: ([.get, .post, .put, .delete].map declaration ++ ["\x7d\n"])

/-! ## Requests -/

/-- An argument of a request. -/
inductive Argument where
  | address (url : String)
  | null
  /-- A parameter of the method. -/
  | parameter (name : String)
  deriving DecidableEq, Repr

/-- How an argument is written: the address is a template literal. -/
def Argument.text : Argument → String
  | .address url => "\x60" ++ url ++ "\x60"
  | .null => "null"
  | .parameter name => name

/-- The type of an argument in a method. -/
def Argument.type? (m : ServiceMethod) : Argument → Option String
  | .address _ => some "string"
  | .null => some "null"
  | .parameter name => (m.parameters.find? (·.1 = name)).map (·.2.display)

/-- A value of the first type can stand where one of the second is wanted: anything goes for `any`,
and `any` for anything. -/
def IsAssignable (type wanted : String) : Prop :=
  type = wanted ∨ type = "any" ∨ wanted = "any"

/-- The parameters take the arguments in order; optional ones at the end can be left out. -/
inductive Accepts (m : ServiceMethod) : List FormalParameter → List Argument → Prop
  | nil : Accepts m [] []
  | omitted {p : FormalParameter} {ps : List FormalParameter} (h : p.isOptional = true)
      (hs : Accepts m ps []) : Accepts m (p :: ps) []
  | passed {p : FormalParameter} {ps : List FormalParameter} {a : Argument} {as : List Argument}
      {type : String} (htype : a.type? m = some type) (h : IsAssignable type p.type)
      (hs : Accepts m ps as) : Accepts m (p :: ps) (a :: as)

/-- The request of a method with arguments. -/
def request (m : ServiceMethod) (arguments : List Argument) : String :=
  m.verb.keyword ++ "<" ++ m.returns.display ++ ">("
    ++ ", ".intercalate (arguments.map Argument.text) ++ ")"
    ++ TypeScript.promiseThen m.construction

/-- The request is written with its address and a body, if there is one; the interface takes them,
and there is a body exactly if it must not be left out. -/
structure IsRequest (m : ServiceMethod) (body : Option Argument) : Prop where
  written : call m = request m (.address m.url :: body.toList)
  accepted : Accepts m (formalParameters m.verb) (.address m.url :: body.toList)
  body : body.isSome ↔ RequiresBody m.verb

variable {m : ServiceMethod}

theorem requiresBody_iff {verb : HttpVerb} : RequiresBody verb ↔ verb = .post ∨ verb = .put := by
  cases verb <;> simp [RequiresBody, formalParameters]

/-- What a method appends to the address is its body. -/
theorem call_eq_request_iff {body : Option Argument} :
    call m = request m (.address m.url :: body.toList) ↔
      m.body = body.elim "" (", " ++ ·.text) := by
  have hrequest : request m (.address m.url :: body.toList) =
      call { m with body := body.elim "" (", " ++ ·.text) } := by
    cases body <;> simp [request, call, Argument.text, ← String.toList_inj]
  rw [hrequest]
  constructor
  · intro h
    have hlists := congrArg String.toList h
    exact String.toList_inj.1 (by simpa [call] using hlists)
  · intro h
    rw [← h]

/-- The body of a request that sends one: the first parameter, if there is one. -/
def bodyArgument (m : ServiceMethod) : Argument :=
  m.parameters.head?.elim .null (.parameter ·.1)

theorem exists_type?_bodyArgument (m : ServiceMethod) :
    ∃ type, (bodyArgument m).type? m = some type := by
  unfold bodyArgument
  cases hparameters : m.parameters with
  | nil => exact ⟨"null", rfl⟩
  | cons p ps => exact ⟨p.2.display, by simp [Argument.type?, hparameters]⟩

theorem accepts_address (h : ¬ RequiresBody m.verb) :
    Accepts m (formalParameters m.verb) [.address m.url] := by
  rw [requiresBody_iff] at h
  cases hverb : m.verb with
  | get | delete => exact .passed rfl (.inl rfl) (.omitted rfl (.omitted rfl .nil))
  | post | put => simp [hverb] at h

theorem accepts_address_bodyArgument (h : RequiresBody m.verb) :
    Accepts m (formalParameters m.verb) [.address m.url, bodyArgument m] := by
  obtain ⟨type, htype⟩ := exists_type?_bodyArgument m
  rw [requiresBody_iff] at h
  cases hverb : m.verb with
  | get | delete => simp [hverb] at h
  | post | put =>
    exact .passed rfl (.inl rfl) (.passed htype (.inr (.inr rfl)) (.omitted rfl .nil))

end React

/-! ## Methods of a service -/

namespace Registry

variable {r : Registry} {controllers : List Controller} {g : ServiceGroup} {m : ServiceMethod}

/-- A method of a service has a body exactly if its verb sends one. -/
theorem body_of_mem_service (hg : g ∈ (r.service controllers).groups) (hm : m ∈ g.methods) :
    m.body = if m.verb.sendsBody then ", " ++ (React.bodyArgument m).text else "" := by
  obtain ⟨_, _, operation, _, _, hmethod⟩ := exists_of_mem_service hg hm
  unfold serviceMethod? at hmethod
  cases hverb : operation.verb with
  | none => simp [hverb] at hmethod
  | some verb =>
    simp only [hverb, Option.ite_none_left_eq_some, Option.some.injEq] at hmethod
    obtain ⟨_, rfl⟩ := hmethod
    cases operation.parameters <;> simp [React.bodyArgument, React.Argument.text]

/-- The interface accepts the requests of all verbs but `put`. -/
theorem exists_isRequest_iff (hg : g ∈ (r.service controllers).groups) (hm : m ∈ g.methods) :
    (∃ body, React.IsRequest m body) ↔ m.verb ≠ .put := by
  have hbody := body_of_mem_service hg hm
  constructor
  · -- The interface wants a body, but a request that is put is written with its address alone.
    rintro ⟨body, h⟩ hverb
    obtain ⟨a, rfl⟩ := Option.isSome_iff_exists.1 (h.body.2 (React.requiresBody_iff.2 (.inr hverb)))
    have hwritten := React.call_eq_request_iff.1 h.written
    rw [hbody, hverb] at hwritten
    simp [HttpVerb.sendsBody] at hwritten
  · intro hput
    by_cases hrequires : React.RequiresBody m.verb
    · refine ⟨some (React.bodyArgument m), ?_, React.accepts_address_bodyArgument hrequires, by simpa⟩
      have hpost := (React.requiresBody_iff.1 hrequires).resolve_right hput
      rw [React.call_eq_request_iff, hbody, hpost]
      rfl
    · refine ⟨none, ?_, React.accepts_address hrequires, by simpa⟩
      have hpost : m.verb ≠ .post := fun h => hrequires (React.requiresBody_iff.2 (.inl h))
      rw [React.call_eq_request_iff, hbody]
      cases hverb : m.verb <;> first | rfl | contradiction

end Registry

/-! ## The file of a service -/

namespace Template

open Json

variable {context : Value}

theorem renderParts_requestInterface :
    renderParts requestInterface context = .ok (String.join React.interfaceLines) := by
  let fixed : Part → String
    | .text s => s
    | _ => ""
  have hparts : requestInterface = (requestInterface.map fixed).map .text := rfl
  have hlines : requestInterface.map fixed = React.interfaceLines := by decide +kernel
  rw [hparts, hlines, renderParts_texts]

end Template

namespace React

open Template

variable {o : Options} {s : Service} {apiPath content : String}

/-- A service of promises always has a file. -/
theorem exists_renderService (ho : o.dialect = .react) (s : Service) (apiPath : String) :
    ∃ content, s.render o apiPath = .ok content := by
  simp only [renderService_eq_ok ho]
  exact exists_renderParts_of_isSupplied _ _ (isSupplied_reactService _)

/-- The file declares the interface. -/
theorem isWithin_interface (ho : o.dialect = .react) (h : s.render o apiPath = .ok content) :
    IsWithin (String.join interfaceLines) content := by
  have hinfix : requestInterface <:+: reactService :=
    (List.infix_append _ _ _).trans
      ((List.prefix_append _ _).trans (List.prefix_append _ _)).isInfix
  obtain ⟨a, ha, hwithin⟩ := exists_of_infix hinfix ((renderService_eq_ok ho).1 h)
  obtain rfl := Except.ok.inj (renderParts_requestInterface.symm.trans ha)
  exact hwithin

end React

/-! ## Requests of a service -/

namespace Registry

/-- A service of promises has a file that declares the interface and has the requests of all methods.
The interface accepts the request of a method exactly if the verb is not `put`. -/
theorem isRequest_iff (r : Registry) (controllers : List Controller) (o : Options)
    (apiPath : String) (ho : o.dialect = .react) :
    ∃ content, (r.service controllers).render o apiPath = .ok content ∧
      IsWithin (String.join React.interfaceLines) content ∧
      ∀ g ∈ (r.service controllers).groups, ∀ m ∈ g.methods, IsWithin (React.call m) content ∧
        ((∃ body, React.IsRequest m body) ↔ m.verb ≠ .put) := by
  obtain ⟨content, hcontent⟩ := React.exists_renderService ho (r.service controllers) apiPath
  refine ⟨content, hcontent, React.isWithin_interface ho hcontent, fun g hg m hm => ?_⟩
  have hcall : o.call m = React.call m := by
    rw [Options.call, ho]
  rw [← hcall]
  exact ⟨isWithin_of_mem_methods hg hm hcontent, exists_isRequest_iff hg hm⟩

/-- A controller with a method that is put and has no parameters. -/
def ledgerController : TypeDef where
  toDeclaration := ⟨"Shop", "", "LedgerController", .classType⟩
  toBody := { Body.empty with
    base := some (.external "ApiController" [])
    methods := [⟨"PutReset", .empty, [], none⟩] }

/-- The controller alone. -/
def ledger : Registry where
  types := [ledgerController]
  nodup := by decide

/-- Options for services of promises. -/
def promises : Options :=
  { Options.initial "in" "out" with dialect := .react }

theorem isRequest_iff_ledger : promises.dialect = .react ∧
    ∃ content, (ledger.service (ledger.controllers ["ApiController"])).render promises "/api" =
        .ok content ∧
      IsWithin (String.join React.interfaceLines) content ∧
      ∀ g ∈ (ledger.service (ledger.controllers ["ApiController"])).groups, ∀ m ∈ g.methods,
        IsWithin (React.call m) content ∧ ((∃ body, React.IsRequest m body) ↔ m.verb ≠ .put) :=
  ⟨rfl, isRequest_iff ledger (ledger.controllers ["ApiController"]) promises "/api" rfl⟩

/-- The request that is put has no body. -/
theorem not_isRequest_putReset :
    ∃ g ∈ (ledger.service (ledger.controllers ["ApiController"])).groups, ∃ m ∈ g.methods,
      ¬ ∃ body, React.IsRequest m body := by
  let c := ledger.controller ⟨0⟩ ledgerController
  have hc : c ∈ ledger.controllers ["ApiController"] :=
    mem_controllers.2 ⟨⟨0⟩, ledgerController, rfl, by decide +kernel, rfl⟩
  have hsorted : Text.sortByText Operation.name c.operations = c.operations :=
    List.mergeSort_of_pairwise (by decide +kernel)
  have hverbs : (ledger.serviceMethods c.group [] c.operations).map ServiceMethod.verb = [.put] := by
    decide +kernel
  rw [← hsorted] at hverbs
  obtain ⟨m, hm, hverb⟩ := List.map_eq_singleton_iff.1 hverbs
  have hg : ledger.serviceGroup c ∈ (ledger.service (ledger.controllers ["ApiController"])).groups :=
    serviceGroup_mem_service hc
  have hmem : m ∈ (ledger.serviceGroup c).methods := by
    rw [serviceGroup, hm]
    exact .head _
  refine ⟨_, hg, m, hmem, ?_⟩
  rw [exists_isRequest_iff hg hmem, not_not]
  exact hverb

end Registry

end ApiClient
