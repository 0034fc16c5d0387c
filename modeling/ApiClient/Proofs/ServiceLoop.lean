import ApiClient.Service
import Mathlib.Data.List.Induction

/-!
# What the loop over controllers gathers

`Registry.service` goes through the operations of all controllers and gathers groups, imports and
the need for dates on the way. What it has in the end can be read off the groups.

* `serviceMethods`, `serviceGroup`: the methods for operations and the group for a controller.

Results:
* `Import.collect_eq`: of the imports of one name the last one is kept.
* `noting_eq`: what noting types adds to a service.
* `foldl_step`: what the loop over operations has come to after them.
* `service_eq`: the service has the group of each controller, and imports what these mention;
  `groups_service` and `imports_service` give the parts.
-/

namespace ApiClient

/-! ## Imports -/

theorem Import.foldl_insert (named : List Import) :
    named.foldl (fun is i => i.insert is) [] = distinctBy Import.name [] named.reverse := by
  induction named using List.reverseRecOn with
  | nil => rfl
  | append_singleton named i ih =>
    rw [List.foldl_append, List.foldl_cons, List.foldl_nil, ih, List.reverse_append,
      List.reverse_singleton, List.singleton_append, distinctBy, if_neg List.not_mem_nil,
      distinctBy_eq_filter _ [i.name], insert]
    refine congrArg _ (List.filter_congr fun j _ => ?_)
    by_cases hname : j.name = i.name <;> simp [hname]

theorem Import.collect_eq (named : List Import) :
    collect named = Text.sortByText Import.name (distinctBy Import.name [] named.reverse) := by
  rw [collect, foldl_insert]

variable {r : Registry}

/-! ## The reading -/

namespace Registry

/-- The methods for operations in order; `seen` are the names in lower case of those before. -/
def serviceMethods (r : Registry) (group : String) :
    List String → List Operation → List ServiceMethod
  | _, [] => []
  | seen, o :: os =>
    let name := Text.lower o.name
    (r.serviceMethod? group o (seen.contains name)).toList
      ++ serviceMethods r group (name :: seen) os

/-- The group for a controller. -/
def serviceGroup (r : Registry) (c : Controller) : ServiceGroup where
  name := Text.camelize c.group
  controller := c.name
  methods := r.serviceMethods c.group [] (Text.sortByText Operation.name c.operations)

end Registry

/-- The types that the methods of groups mention, in order. -/
def ServiceGroup.typesOf (groups : List ServiceGroup) : List MappedType :=
  groups.flatMap fun g => g.methods.flatMap ServiceMethod.types

/-- The service that has noted types. -/
def Service.noting (r : Registry) (s : Service) (ts : List MappedType) : Service :=
  ts.foldl (note r) s

theorem Service.noting_eq (s : Service) (ts : List MappedType) :
    s.noting r ts = {
      groups := s.groups
      imports := (ts.filterMap r.importOf?).foldl (fun is i => i.insert is) s.imports
      usesMoment := s.usesMoment || ts.any MappedType.mentionsDate } := by
  induction ts generalizing s with
  | nil => simp [noting]
  | cons t ts ih =>
    change (s.note r t).noting r ts = _
    rw [ih, note, List.any_cons, Bool.or_assoc]
    cases himport : r.importOf? t with
    | none => rw [List.filterMap_cons_none himport, Option.elim_none]
    | some i => rw [List.filterMap_cons_some himport, List.foldl_cons, Option.elim_some]

theorem Service.noting_append (s : Service) (ts us : List MappedType) :
    s.noting r (ts ++ us) = (s.noting r ts).noting r us :=
  List.foldl_append

/-! ## The loop -/

/-- The invariant of the loop over operations: each method so far has been noted. -/
theorem ServiceLoop.foldl_step (group : String) (l : ServiceLoop) (os : List Operation) :
    ∃ seen, os.foldl (step r group) l = {
      service := l.service.noting r
        ((r.serviceMethods group l.seen os).flatMap ServiceMethod.types)
      seen
      methods := l.methods ++ r.serviceMethods group l.seen os } := by
  induction os generalizing l with
  | nil => exact ⟨l.seen, by simp [Registry.serviceMethods, Service.noting]⟩
  | cons o os ih =>
    obtain ⟨seen, hrest⟩ := ih (l.step r group o)
    refine ⟨seen, ?_⟩
    rw [List.foldl_cons, hrest, Registry.serviceMethods, step]
    cases r.serviceMethod? group o (l.seen.contains (Text.lower o.name)) with
    | none => rfl
    | some m =>
      simp only [Option.toList_some, List.singleton_append, List.flatMap_cons,
        Service.noting_append, List.append_assoc]
      rfl

theorem Service.addController_eq (s : Service) (c : Controller) :
    s.addController r c =
      { s.noting r ((r.serviceGroup c).methods.flatMap ServiceMethod.types) with
        groups := s.groups ++ [r.serviceGroup c] } := by
  obtain ⟨seen, hloop⟩ := ServiceLoop.foldl_step (r := r) c.group ⟨s, [], []⟩
    (Text.sortByText Operation.name c.operations)
  rw [addController]
  simp only [hloop, noting_eq]
  rfl

theorem Service.foldl_addController (s : Service) (cs : List Controller) :
    cs.foldl (addController r) s =
      { s.noting r (ServiceGroup.typesOf (cs.map r.serviceGroup)) with
        groups := s.groups ++ cs.map r.serviceGroup } := by
  induction cs generalizing s with
  | nil => simp [ServiceGroup.typesOf, noting]
  | cons c cs ih =>
    have htypes : ServiceGroup.typesOf (r.serviceGroup c :: cs.map r.serviceGroup) =
        (r.serviceGroup c).methods.flatMap ServiceMethod.types ++
          ServiceGroup.typesOf (cs.map r.serviceGroup) := List.flatMap_cons
    rw [List.foldl_cons, ih, addController_eq, List.map_cons, htypes, noting_append]
    simp only [noting_eq, List.append_assoc, List.singleton_append]

namespace Registry

/-- What the loop has gathered can be read off the groups. -/
theorem service_eq (r : Registry) (cs : List Controller) : r.service cs =
    let groups := cs.map r.serviceGroup
    let types := ServiceGroup.typesOf groups
    { groups
      imports := Import.collect (types.filterMap r.importOf?)
      usesMoment := types.any MappedType.mentionsDate } := by
  rw [service, Service.foldl_addController]
  simp only [Service.noting_eq, List.nil_append, Bool.false_or]
  rfl

theorem groups_service (r : Registry) (cs : List Controller) :
    (r.service cs).groups = cs.map r.serviceGroup := by
  rw [service_eq]

theorem imports_service (r : Registry) (cs : List Controller) : (r.service cs).imports =
    Import.collect ((ServiceGroup.typesOf (r.service cs).groups).filterMap r.importOf?) := by
  rw [service_eq]

theorem serviceGroup_mem_service {c : Controller} {cs : List Controller} (h : c ∈ cs) :
    r.serviceGroup c ∈ (r.service cs).groups := by
  rw [groups_service]
  exact List.mem_map_of_mem h

end Registry

end ApiClient
