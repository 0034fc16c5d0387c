import ApiClient.Proofs.Lookup

/-!
# Calls on a registry

A registry comes from declarations, accepted or rejected, with attachments at any place between
them.

* `Call`, `after`, `run`: the calls, and the registry after one or all of them.
* `accepted`: the declarations that are accepted, with the identities that they are given.

Results:
* `after_declare_cases`: what a declaration does.
* `map_names_run`, `map_index_accepted`: the types are the accepted ones, and their identities are
  their places.
* `get?_run_of_accepted`: a type stays as it was declared until something is attached to it.
* `mem_keys_run`: a module has the names that it was to declare, accepted or not.
-/

namespace ApiClient

/-- What an attachment leaves as it is. -/
def Declaration.names (d : Declaration) : String × String × String :=
  (d.module, d.space, d.name)

theorem Attachment.names_apply (c : Attachment) (d : TypeDef) : (c.apply d).names = d.names := by
  simp only [Declaration.names, c.module_apply, c.space_apply, c.name_apply]

namespace Registry

/-- A call that changes a registry. -/
inductive Call where
  | declare (d : Declaration)
  | attach (id : TypeId) (c : Attachment)

/-- The registry that a call leaves, whether it is accepted or not. -/
def after (r : Registry) : Call → Registry
  | .declare d => ((register d).run.run r).2
  | .attach id c => r.attach id c

/-- The registry after calls. -/
def run (r : Registry) (calls : List Call) : Registry :=
  calls.foldl after r

/-- The declaration of a call with its identity, if it is accepted. -/
def accepted? (r : Registry) : Call → Option (Declaration × TypeId)
  | .declare d => ((register d).run.run r).1.toOption.map fun id => (d, id)
  | .attach _ _ => none

/-- The declarations that are accepted, with their identities. -/
def accepted (r : Registry) : List Call → List (Declaration × TypeId)
  | [] => []
  | c :: calls => (r.accepted? c).toList ++ (r.after c).accepted calls

/-- One of the calls is to declare the qualified name in the module. -/
def Declares (calls : List Call) (qualified module : String) : Prop :=
  ∃ d, Call.declare d ∈ calls ∧ d.key = (qualified, module)

variable {r : Registry}

@[simp] theorem run_nil : r.run [] = r := rfl

@[simp] theorem run_cons (c : Call) (calls : List Call) :
    r.run (c :: calls) = (r.after c).run calls := rfl

theorem run_append (calls calls' : List Call) :
    r.run (calls ++ calls') = (r.run calls).run calls' :=
  List.foldl_append

/-! ## One call -/

/-- A declaration is rejected and changes nothing, or adds its type at the end. -/
theorem after_declare_cases (r : Registry) (d : Declaration) :
    (d.key ∈ r.types.map fun d => d.key) ∧ r.after (.declare d) = r ∧
        r.accepted? (.declare d) = none ∨
      (d.key ∉ r.types.map fun d => d.key) ∧ (r.after (.declare d)).types = r.types ++ [d.bare] ∧
        r.accepted? (.declare d) = some (d, ⟨r.types.length⟩) := by
  by_cases h : d.key ∈ r.types.map fun d => d.key
  · refine .inl ⟨h, ?_, ?_⟩
    · rw [after, register_of_mem h]
    · rw [accepted?, register_of_mem h]
      rfl
  · refine .inr ⟨h, ?_, ?_⟩
    · rw [after, register_of_not_mem h, types_push]
    · rw [accepted?, register_of_not_mem h]
      rfl

theorem after_of_declare_eq_error {d : Declaration} {e : Error} (h : r.declare d = .error e) :
    r.after (.declare d) = r := by
  rw [after, register_of_mem (declare_eq_error_iff.1 ⟨e, h⟩)]

theorem map_names_attach (r : Registry) (id : TypeId) (c : Attachment) :
    ((r.attach id c).types.map fun d => d.names) = r.types.map fun d => d.names := by
  refine List.ext_getElem? fun i => ?_
  rw [List.getElem?_map, List.getElem?_map]
  change ((r.attach id c).get? ⟨i⟩).map _ = (r.get? ⟨i⟩).map _
  rw [get?_attach]
  split
  · rw [Option.map_map]
    exact Option.map_congr fun d _ => c.names_apply d
  · rfl

/-- A call adds the names of the type that it declares, if it does. -/
theorem map_names_after (r : Registry) (c : Call) :
    ((r.after c).types.map fun d => d.names) =
      (r.types.map fun d => d.names) ++ (r.accepted? c).toList.map fun p => p.1.names := by
  cases c with
  | declare d =>
    rcases r.after_declare_cases d with ⟨_, hafter, haccepted⟩ | ⟨_, hafter, haccepted⟩
    · rw [hafter, haccepted]
      simp
    · rw [hafter, haccepted]
      simp
  | attach id c =>
    rw [after, map_names_attach]
    simp [accepted?]

theorem map_index_accepted? (r : Registry) (c : Call) :
    ((r.accepted? c).toList.map fun p => p.2.index) =
      List.range' r.types.length (r.accepted? c).toList.length := by
  cases c with
  | declare d =>
    rcases r.after_declare_cases d with ⟨_, _, haccepted⟩ | ⟨_, _, haccepted⟩
    · rw [haccepted]
      rfl
    · rw [haccepted]
      rfl
  | attach id c => rfl

theorem length_after (r : Registry) (c : Call) :
    (r.after c).types.length = r.types.length + (r.accepted? c).toList.length := by
  have hlength := congrArg List.length (r.map_names_after c)
  rwa [List.length_append, List.length_map, List.length_map, List.length_map] at hlength

/-- A declared type is changed by attachments to it only. -/
theorem get?_after {c : Call} {id : TypeId} {d : TypeDef} (h : r.get? id = some d)
    (hc : ∀ a, c ≠ .attach id a) : (r.after c).get? id = some d := by
  cases c with
  | declare e =>
    rcases r.after_declare_cases e with ⟨_, hafter, _⟩ | ⟨_, hafter, _⟩
    · rw [hafter]
      exact h
    · rw [get?, hafter, List.getElem?_append_left (List.getElem?_eq_some_iff.1 h).1]
      exact h
  | attach a c =>
    have hne : id ≠ a := fun he => hc c (he ▸ rfl)
    rw [after, get?_attach, if_neg hne]
    exact h

/-! ## All calls -/

theorem map_names_run (r : Registry) (calls : List Call) :
    ((r.run calls).types.map fun d => d.names) =
      (r.types.map fun d => d.names) ++ (r.accepted calls).map fun p => p.1.names := by
  induction calls generalizing r with
  | nil => simp [accepted]
  | cons c calls ih =>
    rw [run_cons, ih, map_names_after, accepted, List.map_append, List.append_assoc]

theorem map_index_accepted (r : Registry) (calls : List Call) :
    ((r.accepted calls).map fun p => p.2.index) =
      List.range' r.types.length (r.accepted calls).length := by
  induction calls generalizing r with
  | nil => rfl
  | cons c calls ih =>
    rw [accepted, List.map_append, ih, map_index_accepted?, length_after, List.length_append,
      List.range'_append_1]

/-- Until something is attached to it, a type is as it was. -/
theorem get?_run {calls : List Call} {id : TypeId} {d : TypeDef} (h : r.get? id = some d)
    (hcalls : ∀ a, Call.attach id a ∉ calls) : (r.run calls).get? id = some d := by
  induction calls generalizing r with
  | nil => exact h
  | cons c calls ih =>
    have hc : ∀ a, c ≠ .attach id a := fun a he => hcalls a (he ▸ .head _)
    exact ih (get?_after h hc) fun a ha => hcalls a (.tail _ ha)

theorem get?_run_of_accepted {calls : List Call} {d : Declaration} {id : TypeId}
    (h : (d, id) ∈ r.accepted calls) (hcalls : ∀ a, Call.attach id a ∉ calls) :
    (r.run calls).get? id = some d.bare := by
  induction calls generalizing r with
  | nil => simp [accepted] at h
  | cons c calls ih =>
    have hlater : ∀ a, Call.attach id a ∉ calls := fun a ha => hcalls a (.tail _ ha)
    rw [accepted, List.mem_append, Option.mem_toList] at h
    rw [run_cons]
    rcases h with h | h
    · cases c with
      | declare e =>
        rcases r.after_declare_cases e with ⟨_, _, haccepted⟩ | ⟨_, hafter, haccepted⟩
        · rw [haccepted] at h
          simp at h
        · rw [haccepted, Option.some.injEq, Prod.mk.injEq] at h
          obtain ⟨rfl, rfl⟩ := h
          have hdeclared : (r.after (.declare e)).get? ⟨r.types.length⟩ = some e.bare := by
            rw [get?, hafter]
            simp
          exact get?_run hdeclared hlater
      | attach a c => simp [accepted?] at h
    · exact ih h hlater

/-- The types of a registry that was empty are those that were accepted, in that order. -/
theorem map_names_run_empty (calls : List Call) :
    ((run .empty calls).types.map fun d => d.names) =
      (accepted .empty calls).map fun p => p.1.names := by
  rw [map_names_run]
  rfl

theorem map_index_accepted_empty (calls : List Call) :
    ((accepted .empty calls).map fun p => p.2.index) =
      List.range (run .empty calls).types.length := by
  have hlength := congrArg List.length (map_names_run_empty calls)
  rw [List.length_map, List.length_map] at hlength
  rw [map_index_accepted, hlength, List.range_eq_range']
  rfl

/-- The type of an accepted declaration is found under its identity, with its names. -/
theorem exists_get?_run {calls : List Call} {d : Declaration} {id : TypeId}
    (h : (d, id) ∈ accepted .empty calls) :
    ∃ t, (run .empty calls).get? id = some t ∧ t.names = d.names := by
  obtain ⟨i, hi⟩ := List.mem_iff_getElem?.1 h
  have hindex := congrArg (·[i]?) (map_index_accepted_empty calls)
  have hnames := congrArg (·[i]?) (map_names_run_empty calls)
  simp only [List.getElem?_map, hi, Option.map_some] at hindex hnames
  obtain ⟨t, ht, he⟩ := Option.map_eq_some_iff.1 hnames
  obtain ⟨_, hid⟩ := List.getElem?_eq_some_iff.1 hindex.symm
  rw [List.getElem_range] at hid
  exact ⟨t, by rw [get?, ← hid, ht], he⟩

theorem mem_keys_after {c : Call} {k : String × String} :
    k ∈ ((r.after c).types.map fun d => d.key) ↔
      (k ∈ r.types.map fun d => d.key) ∨ ∃ d, c = .declare d ∧ d.key = k := by
  cases c with
  | declare d =>
    rcases r.after_declare_cases d with ⟨hmem, hafter, _⟩ | ⟨_, hafter, _⟩
    · rw [hafter]
      refine ⟨.inl, ?_⟩
      rintro (hk | ⟨e, he, rfl⟩)
      · exact hk
      · obtain rfl := Call.declare.inj he
        exact hmem
    · rw [hafter]
      simp [eq_comm]
  | attach id c =>
    rw [after, r.sameNames_attach id c]
    simp

/-- Declaring a name again changes nothing, so a name is there exactly if it was to be declared. -/
theorem mem_keys_run {calls : List Call} {qualified module : String} :
    (qualified, module) ∈ ((run .empty calls).types.map fun d => d.key) ↔
      Declares calls qualified module := by
  have hrun : ∀ (r : Registry) (calls : List Call) (k : String × String),
      k ∈ ((r.run calls).types.map fun d => d.key) ↔
        (k ∈ r.types.map fun d => d.key) ∨ ∃ d, Call.declare d ∈ calls ∧ d.key = k := by
    intro r calls k
    induction calls generalizing r with
    | nil => simp
    | cons c calls ih =>
      rw [run_cons, ih, mem_keys_after, or_assoc]
      simp only [List.mem_cons, or_and_right, exists_or, eq_comm (a := c)]
  rw [hrun]
  simp [empty, Declares]

end Registry

end ApiClient
