import ApiClient.Proofs.Renaming.Views
import ApiClient.Proofs.ServiceLoop

/-!
# Renaming the types of services

The service of renamed controllers is renamed. Its methods keep their names, requests and
constructions, so the contexts that templates are filled with stay as they are.

Results:
* `Registry.Renames.service`: services are renamed.
* `Angular.serviceContext_rename`, `React.serviceContext_rename`: the contexts of a service stay.
-/

namespace ApiClient

/-! ## Queries -/

theorem TypeScript.queryArgument_rename {f : TypeId → TypeId} (name : String) (t : MappedType) :
    queryArgument name (t.rename f) = queryArgument name t := by
  cases t <;> rfl

theorem TypeScript.withQuery_rename {f : TypeId → TypeId} (url : String)
    (ps : List (String × MappedType)) :
    withQuery url (ps.map fun p => (p.1, p.2.rename f)) = withQuery url ps := by
  cases ps <;> simp [withQuery, queryArgument_rename, Function.comp_def]

theorem ServiceGroup.types_rename {f : TypeId → TypeId} (gs : List ServiceGroup) :
    (gs.map (ServiceGroup.rename f)).flatMap (fun g => g.methods.flatMap ServiceMethod.types) =
      (gs.flatMap fun g => g.methods.flatMap ServiceMethod.types).map (MappedType.rename f) := by
  rw [List.flatMap_map, List.map_flatMap]
  refine List.flatMap_congr fun g _ => ?_
  change (g.methods.map (ServiceMethod.rename f)).flatMap ServiceMethod.types = _
  rw [List.flatMap_map, List.map_flatMap]
  refine List.flatMap_congr fun m _ => ?_
  simp [ServiceMethod.types, ServiceMethod.rename]

namespace Registry.Renames

variable {f : TypeId → TypeId} {r r' : Registry} (h : r.Renames f r')
include h

/-! ## Services -/

theorem construction (t : MappedType) :
    TypeScript.Construction.of? r' (t.rename f) = TypeScript.Construction.of? r t := by
  unfold TypeScript.Construction.of?
  rw [MappedType.model?_rename]
  cases t.model? with
  | none => rfl
  | some m => simp only [Option.map_some, h.isConstructible, MappedType.isArray_rename]

theorem serviceMethod? (group : String) (o : Operation) (repeated : Bool) :
    r'.serviceMethod? group (o.rename f) repeated =
      (r.serviceMethod? group o repeated).map (ServiceMethod.rename f) := by
  have hparameters : (o.rename f).parameters.map (fun p => (p.name, r'.map false p.type)) =
      (o.parameters.map fun p => (p.name, r.map false p.type)).map
        fun p => (p.1, p.2.rename f) := by
    change (o.parameters.map (Parameter.rename f)).map _ = _
    rw [List.map_map, List.map_map]
    exact List.map_congr_left fun p _ => congrArg (Prod.mk p.name) (h.map false p.type)
  have hreturns : (o.rename f).returns.elim .any (r'.map false) =
      (o.returns.elim .any (r.map false)).rename f := by
    change (o.returns.map (TypeRef.rename f)).elim _ _ = _
    cases o.returns with
    | none => rfl
    | some t => exact h.map false t
  unfold Registry.serviceMethod?
  rw [hparameters, hreturns, show (o.rename f).verb = o.verb from rfl,
    show (o.rename f).name = o.name from rfl]
  cases o.verb with
  | none => rfl
  | some verb =>
    simp only [MappedType.isExcluded_rename, List.any_map, Function.comp_def, h.construction,
      TypeScript.withQuery_rename, List.head?_map, Option.elim_map]
    split <;> rfl

theorem serviceMethods (group : String) (seen : List String) (os : List Operation) :
    r'.serviceMethods group seen (os.map (Operation.rename f)) =
      (r.serviceMethods group seen os).map (ServiceMethod.rename f) := by
  induction os generalizing seen with
  | nil => rfl
  | cons o os ih =>
    rw [List.map_cons, Registry.serviceMethods, Registry.serviceMethods, h.serviceMethod?,
      show (o.rename f).name = o.name from rfl, ih, List.map_append]
    cases r.serviceMethod? group o (seen.contains (Text.lower o.name)) <;> rfl

theorem serviceGroup (c : Controller) :
    r'.serviceGroup (c.rename f) = (r.serviceGroup c).rename f := by
  have hsorted : Text.sortByText Operation.name (c.rename f).operations =
      (Text.sortByText Operation.name c.operations).map (Operation.rename f) :=
    Text.sortByText_map (fun _ => rfl) _
  rw [Registry.serviceGroup, Registry.serviceGroup, hsorted, h.serviceMethods]
  rfl

theorem service (cs : List Controller) :
    r'.service (cs.map (Controller.rename f)) = (r.service cs).rename f := by
  have hgroups : (cs.map (Controller.rename f)).map r'.serviceGroup =
      (cs.map r.serviceGroup).map (ServiceGroup.rename f) := by
    rw [List.map_map, List.map_map]
    exact List.map_congr_left fun c _ => h.serviceGroup c
  have himports : r'.importOf? ∘ MappedType.rename f = r.importOf? := funext h.importOf?
  have hdates : MappedType.mentionsDate ∘ MappedType.rename f = MappedType.mentionsDate :=
    funext MappedType.mentionsDate_rename
  rw [Registry.service_eq, Registry.service_eq]
  simp only [ServiceGroup.typesOf, hgroups, ServiceGroup.types_rename, List.filterMap_map,
    List.any_map, himports, hdates, Service.rename]

end Registry.Renames

/-! ## Contexts -/

theorem ServiceGroup.context_rename {f : TypeId → TypeId} {call : ServiceMethod → String}
    (hcall : ∀ m : ServiceMethod, call (m.rename f) = call m) (g : ServiceGroup) :
    (g.rename f).context call = g.context call := by
  have hmethod : ∀ m : ServiceMethod,
      (m.rename f).context g.controller call = m.context g.controller call := by
    intro m
    have hsignature : (m.rename f).signature = m.signature := by
      simp [ServiceMethod.signature, ServiceMethod.rename, Function.comp_def]
    unfold ServiceMethod.context
    rw [hsignature, hcall, show (m.rename f).returns = m.returns.rename f from rfl,
      MappedType.display_rename]
    rfl
  have hmethods : (g.methods.map (ServiceMethod.rename f)).map
      (ServiceMethod.context g.controller call) =
        g.methods.map (ServiceMethod.context g.controller call) := by
    rw [List.map_map]
    exact List.map_congr_left fun m _ => hmethod m
  exact congrArg (GroupContext.mk g.name) hmethods

theorem Service.groupContexts_rename {f : TypeId → TypeId} {call : ServiceMethod → String}
    (hcall : ∀ m : ServiceMethod, call (m.rename f) = call m) (s : Service) :
    (s.rename f).groups.map (ServiceGroup.context call) =
      s.groups.map (ServiceGroup.context call) := by
  change (s.groups.map (ServiceGroup.rename f)).map _ = _
  rw [List.map_map]
  exact List.map_congr_left fun g _ => ServiceGroup.context_rename hcall g

theorem Angular.legacyCall_rename {f : TypeId → TypeId} (m : ServiceMethod) :
    legacyCall (m.rename f) = legacyCall m :=
  rfl

theorem TypeScript.textResponse_rename {f : TypeId → TypeId} (t : MappedType) :
    textResponse (t.rename f) = textResponse t := by
  cases t <;> rfl

theorem Angular.clientCall_rename {f : TypeId → TypeId} (m : ServiceMethod) :
    clientCall (m.rename f) = clientCall m := by
  unfold clientCall TypeScript.typeArgument TypeScript.closeCall
  rw [show (m.rename f).returns = m.returns.rename f from rfl, TypeScript.textResponse_rename,
    MappedType.display_rename]
  rfl

theorem React.call_rename {f : TypeId → TypeId} (m : ServiceMethod) :
    call (m.rename f) = call m := by
  unfold call
  rw [show (m.rename f).returns = m.returns.rename f from rfl, MappedType.display_rename]
  rfl

theorem Angular.serviceContext_rename {f : TypeId → TypeId} (o : Options) (s : Service)
    (apiPath : String) : serviceContext o (s.rename f) apiPath = serviceContext o s apiPath := by
  have hcall : ∀ m : ServiceMethod,
      (if o.httpModule = .legacy then legacyCall else clientCall) (m.rename f) =
        (if o.httpModule = .legacy then legacyCall else clientCall) m := by
    intro m
    split
    · exact legacyCall_rename m
    · exact clientCall_rename m
  unfold serviceContext
  rw [Service.groupContexts_rename hcall]
  rfl

theorem React.serviceContext_rename {f : TypeId → TypeId} (o : Options) (s : Service)
    (apiPath : String) : serviceContext o (s.rename f) apiPath = serviceContext o s apiPath := by
  unfold serviceContext
  rw [Service.groupContexts_rename call_rename]
  rfl

end ApiClient
