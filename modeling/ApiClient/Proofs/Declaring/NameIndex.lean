import ApiClient.Proofs.Declaring.Calls

/-!
# An index of names

`Registry.lookup` goes through all types. Declaring can file the identity of every new type under
its qualified name, so that only the types of one name have to be looked at. An index does not know
whether it is right: it is kept so by the calls.

* `Index`: types with their identities filed by qualified name.
* `Index.register`, `Index.attach`, `Index.lookup`: declaring, changing and finding types by it.

Results:
* `Agrees.register`, `Agrees.lookup`: an index that agrees with a registry gives the same answers.
* `Agrees.after`, `Agrees.run`: calls keep the index in agreement.
-/

namespace ApiClient.Registry

/-- Types, and their identities filed by qualified name in the order of declaration. -/
structure Index where
  types : List TypeDef
  byName : Std.HashMap String (List TypeId)

namespace Index

/-- The index without types. -/
def empty : Index := ⟨[], ∅⟩

/-- The identities that are filed under a name. -/
def filed (x : Index) (qualified : String) : List TypeId :=
  x.byName.getD qualified []

/-- The module of a type. -/
def module? (x : Index) (id : TypeId) : Option String :=
  x.types[id.index]?.map fun d => d.module

/-- Steps on an index, which may stop with an error; what they changed before stays. -/
abbrev Action := ExceptT Error (StateM Index)

/-- Declares a type without members and files it, unless its module has filed the name already. -/
def register (d : Declaration) : Action TypeId := do
  let x ← get
  if (x.filed d.qualifiedName).any fun id => x.module? id == some d.module then
    throw (.moduleLoad d.module (.declaredTwice d.qualifiedName))
  let id : TypeId := ⟨x.types.length⟩
  modify fun x => { x with types := x.types ++ [d.bare] }
  modify fun x =>
    { x with byName := x.byName.insert d.qualifiedName (x.filed d.qualifiedName ++ [id]) }
  return id

/-- Changes a declared type. What is filed stays. -/
def attach (x : Index) (id : TypeId) (c : Attachment) : Index :=
  { x with types := x.types.modify id.index c.apply }

/-- The index with one more type, filed under its name. -/
def push (x : Index) (d : Declaration) : Index where
  types := x.types ++ [d.bare]
  byName := x.byName.insert d.qualifiedName (x.filed d.qualifiedName ++ [⟨x.types.length⟩])

theorem register_run (x : Index) (d : Declaration) : (register d).run.run x =
    if (x.filed d.qualifiedName).any fun id => x.module? id == some d.module then
      (.error (.moduleLoad d.module (.declaredTwice d.qualifiedName)), x)
    else (.ok ⟨x.types.length⟩, x.push d) := by
  by_cases hfiled : (x.filed d.qualifiedName).any fun id => x.module? id == some d.module
  · rw [if_pos hfiled]
    change ((if _ then throw _ else _ : Action TypeId)).run.run x = _
    rw [if_pos hfiled]
    rfl
  · rw [if_neg hfiled]
    change ((if _ then throw _ else _ : Action TypeId)).run.run x = _
    rw [if_neg hfiled]
    rfl

/-- The index after a call. -/
def after (x : Index) : Call → Index
  | .declare d => ((register d).run.run x).2
  | .attach id c => x.attach id c

/-- The index after calls. -/
def run (x : Index) (calls : List Call) : Index :=
  calls.foldl after x

/-- The declared type of a qualified name, among those that are filed under it: that of the module
itself, or else that of the module that sorts first. -/
def lookup (x : Index) (qualified module : String) : Option TypeId :=
  let candidates := x.filed qualified
  match candidates.find? fun id => x.module? id == some module with
  | some id => some id
  | none => (leastModule (candidates.filterMap fun id => (x.module? id).map (id, ·))).map (·.1)

/-- Under each name exactly the types of that name are filed. -/
structure Agrees (x : Index) (r : Registry) : Prop where
  types : x.types = r.types
  filed : ∀ qualified, x.filed qualified = (r.candidates qualified).map (·.1)

end Index

/-! ## Candidates of a longer registry -/

theorem candidates_append {r r' : Registry} {d : TypeDef} (h : r'.types = r.types ++ [d])
    (qualified : String) :
    r'.candidates qualified = r.candidates qualified ++
      if d.qualifiedName = qualified then [(⟨r.types.length⟩, d.module)] else [] := by
  have hids : r'.ids = r.ids ++ [⟨r.types.length⟩] := by
    rw [ids, h, List.length_append, List.length_singleton, List.range_succ, List.map_append]
    rfl
  have hold : ∀ id ∈ r.ids, r'.get? id = r.get? id := by
    intro id hid
    obtain ⟨e, he⟩ := mem_ids.1 hid
    rw [get?, h, List.getElem?_append_left (List.getElem?_eq_some_iff.1 he).1]
    rfl
  have hnew : r'.get? ⟨r.types.length⟩ = some d := by
    rw [get?, h]
    simp
  rw [candidates, candidates, hids, List.filterMap_append]
  refine congr (congrArg _ (List.filterMap_congr fun id hid => by rw [hold id hid])) ?_
  rw [List.filterMap_cons, hnew]
  by_cases hname : d.qualifiedName = qualified
  · simp [hname]
  · simp [hname]

namespace Index.Agrees

variable {x : Index} {r : Registry} (h : x.Agrees r)
include h

/-! ## One call -/

theorem module?_eq (id : TypeId) : x.module? id = (r.get? id).map fun d => d.module := by
  rw [module?, h.types]
  rfl

theorem module?_of_mem {qualified : String} {c : TypeId × String}
    (hc : c ∈ r.candidates qualified) : x.module? c.1 = some c.2 := by
  obtain ⟨d, hd, _, hmodule⟩ := mem_candidates.1 hc
  rw [h.module?_eq, hd, Option.map_some, hmodule]

/-- The search among the filed identities fails where the search among all types does. -/
theorem any_filed_iff (d : Declaration) :
    ((x.filed d.qualifiedName).any fun id => x.module? id == some d.module) = true ↔
      d.key ∈ r.types.map fun d => d.key := by
  rw [h.filed, List.any_map, List.any_eq_true, List.mem_map]
  constructor
  · rintro ⟨c, hc, hmodule⟩
    obtain ⟨e, he, hname, _⟩ := mem_candidates.1 hc
    rw [Function.comp_apply, beq_iff_eq, h.module?_eq, he, Option.map_some,
      Option.some.injEq] at hmodule
    exact ⟨e, mem_types_iff.2 ⟨_, he⟩, by rw [Declaration.key, hname, hmodule, Declaration.key]⟩
  · rintro ⟨e, he, hkey⟩
    obtain ⟨id, hid⟩ := mem_types_iff.1 he
    obtain ⟨hname, hmodule⟩ := Prod.mk.inj hkey
    refine ⟨(id, d.module), mem_candidates.2 ⟨e, hid, hname, hmodule⟩, ?_⟩
    rw [Function.comp_apply, beq_iff_eq, h.module?_eq, hid, Option.map_some, hmodule]

/-- What is filed already is rejected, and neither the types nor what is filed is changed. -/
theorem register_of_mem {d : Declaration} (hmem : d.key ∈ r.types.map fun d => d.key) :
    (Index.register d).run.run x =
      (.error (.moduleLoad d.module (.declaredTwice d.qualifiedName)), x) := by
  rw [Index.register_run, if_pos ((h.any_filed_iff d).2 hmem)]

theorem register_of_not_mem {d : Declaration} (hmem : d.key ∉ r.types.map fun d => d.key) :
    (Index.register d).run.run x = (.ok ⟨x.types.length⟩, x.push d) := by
  rw [Index.register_run, if_neg (mt (h.any_filed_iff d).1 hmem)]

/-- Both reject a declaration with the same error, or give its type the same identity. -/
theorem register (d : Declaration) :
    ((Index.register d).run.run x).1 = ((Registry.register d).run.run r).1 := by
  by_cases hmem : d.key ∈ r.types.map fun d => d.key
  · rw [h.register_of_mem hmem, Registry.register_of_mem hmem]
  · rw [h.register_of_not_mem hmem, Registry.register_of_not_mem hmem, h.types]

theorem after (c : Call) : (x.after c).Agrees (r.after c) := by
  cases c with
  | declare d =>
    by_cases hmem : d.key ∈ r.types.map fun d => d.key
    · rw [Index.after, h.register_of_mem hmem, Registry.after, Registry.register_of_mem hmem]
      exact h
    · rw [Index.after, h.register_of_not_mem hmem, Registry.after,
        Registry.register_of_not_mem hmem]
      refine ⟨by rw [Index.push, h.types, types_push], fun qualified => ?_⟩
      rw [candidates_append (types_push hmem), List.map_append, ← h.filed, Index.push, Index.filed,
        Std.HashMap.getD_insert, h.types, Declaration.bare_toDeclaration]
      by_cases hname : d.qualifiedName = qualified
      · simp [hname]
      · simp [hname, Index.filed]
  | attach id c =>
    refine ⟨?_, fun qualified => ?_⟩
    · rw [Index.after, Index.attach, Registry.after, Registry.attach, h.types]
    · rw [Registry.after, (r.sameNames_attach id c).candidates]
      exact h.filed qualified

theorem run (calls : List Call) : (x.run calls).Agrees (r.run calls) := by
  induction calls generalizing x r with
  | nil => exact h
  | cons c calls ih => exact ih (h.after c)

/-! ## Look-up -/

theorem lookup (qualified module : String) :
    x.lookup qualified module = r.lookup qualified module := by
  have hpairs : (x.filed qualified).filterMap (fun id => (x.module? id).map (id, ·)) =
      r.candidates qualified := by
    rw [h.filed, List.filterMap_map]
    refine (List.filterMap_congr fun c hc => ?_).trans List.filterMap_some
    rw [Function.comp_apply, h.module?_of_mem hc, Option.map_some]
  have hfind : (x.filed qualified).find? (fun id => x.module? id == some module) =
      ((r.candidates qualified).find? (·.2 == module)).map (·.1) := by
    have hsame : (r.candidates qualified).filter (fun c => x.module? c.1 == some module) =
        (r.candidates qualified).filter (·.2 == module) := by
      refine List.filter_congr fun c hc => ?_
      rw [h.module?_of_mem hc]
      rfl
    rw [h.filed, List.find?_map, ← List.head?_filter, ← List.head?_filter, ← hsame]
    rfl
  rw [Index.lookup, Registry.lookup]
  simp only [hpairs, hfind]
  cases (r.candidates qualified).find? (·.2 == module) <;> rfl

end Index.Agrees

theorem Index.agrees_empty : Index.empty.Agrees .empty :=
  ⟨rfl, fun _ => Std.HashMap.getD_empty⟩

end ApiClient.Registry
