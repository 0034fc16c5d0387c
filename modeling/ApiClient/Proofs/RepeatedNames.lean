import ApiClient.Proofs.ServiceMethods

/-!
# Repeated names in a group

A group goes through the operations of its controller by name and remembers the names that it has
met, up to case. A method whose name was met before is flagged. An operation that cannot be served
is left out, but its name is remembered all the same, so a method may be flagged whose name no other
method of the group has.

Results:
* `serviceMethods_append`: what is remembered are the names of all operations so far.
* `exists_standsFor`, `exists_standsFor_of_isServed`: the methods of a group and the operations that
  can be served are the same, and the operations before decide on the flag.
* `ServiceGroup.FlagsRepeats`: exactly the methods whose name an earlier method has are flagged.
* `flagsRepeats_iff`: this holds exactly if no operation that is left out comes first of its name,
  unless all of that name are left out.
* `not_flagsRepeats_order`: some group has a flag too many.
-/

namespace ApiClient

/-! ## Specification -/

/-- What is compared of the name of an operation. -/
def Operation.lowerName (o : Operation) : String :=
  Text.lower o.name

/-- A method is flagged exactly if one before it in the group has its name, up to case. -/
def ServiceGroup.FlagsRepeats (g : ServiceGroup) : Prop :=
  ∀ before m after, g.methods = before ++ m :: after →
    (m.repeated = true ↔ ∃ m' ∈ before, Text.lower m'.operation = Text.lower m.operation)

namespace Registry

/-- The method is for the operation, and those before it are for the earlier operations that can be
served. For the flag all earlier operations count. -/
structure StandsFor (r : Registry) (earlier : List Operation) (o : Operation)
    (before : List ServiceMethod) (m : ServiceMethod) : Prop where
  served : r.IsServed o
  method : r.IsMethodOf o m
  before : List.Forall₂ r.IsMethodOf (earlier.filter (r.IsServed ·)) before
  repeated : m.repeated = true ↔ ∃ o' ∈ earlier, o'.lowerName = o.lowerName

variable {r : Registry} {group : String} {seen : List String} {os earlier later : List Operation}
  {o : Operation} {before after : List ServiceMethod} {m : ServiceMethod}

/-! ## Names that are remembered -/

theorem serviceMethods_append (group : String) (seen : List String) (as bs : List Operation) :
    r.serviceMethods group seen (as ++ bs) = r.serviceMethods group seen as ++
      r.serviceMethods group ((as.map Operation.lowerName).reverse ++ seen) bs := by
  induction as generalizing seen with
  | nil => rfl
  | cons o os ih =>
    rw [List.cons_append, serviceMethods, serviceMethods, ih, List.append_assoc, List.map_cons,
      List.reverse_cons, List.append_assoc]
    rfl

theorem repeated_of_serviceMethod? {repeated : Bool}
    (h : r.serviceMethod? group o repeated = some m) : m.repeated = repeated := by
  unfold serviceMethod? at h
  cases hverb : o.verb with
  | none => simp [hverb] at h
  | some verb =>
    simp only [hverb, Option.ite_none_left_eq_some, Option.some.injEq] at h
    obtain ⟨_, rfl⟩ := h
    rfl

/-! ## Methods and operations -/

theorem standsFor_of_serviceMethod? (h : r.serviceMethod? group o
      ((earlier.map Operation.lowerName).reverse.contains o.lowerName) = some m) :
    r.StandsFor earlier o (r.serviceMethods group [] earlier) m where
  served := isServed_iff.2 (Option.isSome_of_mem h)
  method := isMethodOf_of_serviceMethod? h
  before := forall₂_serviceMethods group [] earlier
  repeated := by
    rw [repeated_of_serviceMethod? h, List.contains_iff_mem, List.mem_reverse, List.mem_map]

/-- Every method comes from an operation, and finds there the names that were met before. -/
theorem exists_of_serviceMethods_eq (h : r.serviceMethods group seen os = before ++ m :: after) :
    ∃ earlier o later, os = earlier ++ o :: later ∧
      r.serviceMethods group seen earlier = before ∧
        r.serviceMethod? group o
          (((earlier.map Operation.lowerName).reverse ++ seen).contains o.lowerName) = some m := by
  induction os generalizing seen before with
  | nil => simp [serviceMethods] at h
  | cons o os ih =>
    rw [serviceMethods] at h
    cases hmethod : r.serviceMethod? group o (seen.contains (Text.lower o.name)) with
    | none =>
      -- The operation is left out, but it joins those before, whose names are remembered.
      rw [hmethod] at h
      obtain ⟨earlier, o', later, rfl, hbefore, hm⟩ := ih h
      refine ⟨o :: earlier, o', later, rfl, ?_, ?_⟩
      · rw [serviceMethods, hmethod]
        exact hbefore
      · rw [List.map_cons, List.reverse_cons, List.append_assoc]
        exact hm
    | some m' =>
      rw [hmethod] at h
      cases before with
      | nil =>
        obtain rfl := (List.cons.inj h).1
        exact ⟨[], o, os, rfl, rfl, hmethod⟩
      | cons b before =>
        obtain ⟨rfl, hrest⟩ := List.cons.inj h
        obtain ⟨earlier, o', later, rfl, hbefore, hm⟩ := ih hrest
        refine ⟨o :: earlier, o', later, rfl, ?_, ?_⟩
        · rw [serviceMethods, hmethod, hbefore]
          rfl
        · rw [List.map_cons, List.reverse_cons, List.append_assoc]
          exact hm

theorem exists_standsFor (h : r.serviceMethods group [] os = before ++ m :: after) :
    ∃ earlier o later, os = earlier ++ o :: later ∧ r.StandsFor earlier o before m := by
  obtain ⟨earlier, o, later, hos, rfl, hmethod⟩ := exists_of_serviceMethods_eq h
  rw [List.append_nil] at hmethod
  exact ⟨earlier, o, later, hos, standsFor_of_serviceMethod? hmethod⟩

theorem exists_standsFor_of_isServed (h : r.IsServed o) (group : String)
    (earlier later : List Operation) :
    ∃ before m after, r.serviceMethods group [] (earlier ++ o :: later) = before ++ m :: after ∧
      r.StandsFor earlier o before m := by
  obtain ⟨m, hmethod⟩ : ∃ m, r.serviceMethod? group o
      ((earlier.map Operation.lowerName).reverse.contains o.lowerName) = some m :=
    Option.isSome_iff_exists.1 (isServed_iff.1 h)
  have hrest : r.serviceMethods group ((earlier.map Operation.lowerName).reverse ++ [])
      (o :: later) = m :: r.serviceMethods group
        (o.lowerName :: ((earlier.map Operation.lowerName).reverse ++ [])) later := by
    rw [List.append_nil, serviceMethods]
    unfold Operation.lowerName at hmethod ⊢
    rw [hmethod]
    rfl
  have hall := serviceMethods_append (r := r) group [] earlier (o :: later)
  rw [hrest] at hall
  exact ⟨_, m, _, hall, standsFor_of_serviceMethod? hmethod⟩

/-! ## Flags -/

/-- Methods before are those of earlier operations that can be served, by name. -/
theorem StandsFor.exists_before_iff (h : r.StandsFor earlier o before m) :
    (∃ m' ∈ before, Text.lower m'.operation = Text.lower m.operation) ↔
      ∃ o' ∈ earlier, r.IsServed o' ∧ o'.lowerName = o.lowerName := by
  have hnames : ∀ {as : List Operation} {ms : List ServiceMethod},
      List.Forall₂ r.IsMethodOf as ms →
        ms.map (fun m => Text.lower m.operation) = as.map Operation.lowerName := by
    intro as ms hms
    induction hms with
    | nil => rfl
    | cons hm _ ih => rw [List.map_cons, List.map_cons, ih, hm.operation]; rfl
  have hbefore : ∀ name, (∃ m' ∈ before, Text.lower m'.operation = name) ↔
      name ∈ (earlier.filter (r.IsServed ·)).map Operation.lowerName := by
    intro name
    rw [← hnames h.before, List.mem_map]
  rw [hbefore, h.method.operation, List.mem_map]
  simp only [List.mem_filter, decide_eq_true_eq, and_assoc]
  rfl

/-- The flags are right exactly if, wherever an operation that can be served repeats an earlier name,
an earlier one of that name can be served as well. -/
theorem flagsRepeats_iff_of_serviceMethods {g : ServiceGroup}
    (hg : g.methods = r.serviceMethods group [] os) :
    g.FlagsRepeats ↔ ∀ earlier o later, os = earlier ++ o :: later → r.IsServed o →
      (∃ o' ∈ earlier, o'.lowerName = o.lowerName) →
        ∃ o' ∈ earlier, r.IsServed o' ∧ o'.lowerName = o.lowerName := by
  unfold ServiceGroup.FlagsRepeats
  rw [hg]
  constructor
  · rintro h earlier o later rfl hserved hrepeats
    obtain ⟨before, m, after, hms, hm⟩ := exists_standsFor_of_isServed hserved group earlier later
    exact hm.exists_before_iff.1 ((h before m after hms).1 (hm.repeated.2 hrepeats))
  · intro h before m after hms
    obtain ⟨earlier, o, later, hos, hm⟩ := exists_standsFor hms
    rw [hm.repeated, hm.exists_before_iff]
    constructor
    · exact h earlier o later hos hm.served
    · rintro ⟨o', ho', _, hname⟩
      exact ⟨o', ho', hname⟩

/-- Of the operations with a name, one comes first. -/
theorem exists_isFirst_append (h : ∃ o' ∈ earlier, o'.lowerName = o.lowerName)
    (later : List Operation) :
    ∃ first ∈ earlier, IsFirst Operation.lowerName (earlier ++ later) first ∧
      first.lowerName = o.lowerName := by
  obtain ⟨o', ho', hname⟩ := h
  obtain ⟨first, hkept, hsame⟩ : ∃ first ∈ distinctBy Operation.lowerName [] earlier,
      first.lowerName = o'.lowerName := exists_mem_distinctBy ho' List.not_mem_nil
  have hfirst := mem_distinctBy_nil_iff.1 hkept
  exact ⟨first, hfirst.mem, isFirst_append.2 (.inl hfirst), hsame.trans hname⟩

/-- Of the operations with a name that can be served, one comes first. -/
theorem exists_served_append (ho : o ∈ os) (h : r.IsServed o) :
    ∃ earlier first later, os = earlier ++ first :: later ∧ r.IsServed first ∧
      first.lowerName = o.lowerName ∧
        ¬ ∃ o' ∈ earlier, r.IsServed o' ∧ o'.lowerName = o.lowerName := by
  let wanted : Operation → Bool := fun o' => r.IsServed o' ∧ o'.lowerName = o.lowerName
  obtain ⟨first, hfirst⟩ := Option.isSome_iff_exists.1
    (List.find?_isSome.2 ⟨o, ho, show wanted o = true by simp [wanted, h]⟩)
  obtain ⟨hwanted, earlier, later, rfl, hearlier⟩ := List.find?_eq_some_iff_append.1 hfirst
  obtain ⟨hserved, hname⟩ := of_decide_eq_true hwanted
  refine ⟨earlier, first, later, rfl, hserved, hname, ?_⟩
  rintro ⟨o', ho', hother⟩
  have hnot := hearlier o' ho'
  simp [wanted, hother] at hnot

/-- Every method of a group comes from an operation of its controller, and is flagged exactly if one
before that, in the order of their names, has its name up to case, served or not. So the flags tell
the methods whose name an earlier method has, exactly if no operation that is left out comes first
of its name while another one of that name is served. -/
theorem flagsRepeats_iff (r : Registry) (c : Controller) :
    (∀ before m after, (r.serviceGroup c).methods = before ++ m :: after →
      ∃ earlier o later, Text.sortByText Operation.name c.operations = earlier ++ o :: later ∧
        r.StandsFor earlier o before m) ∧
    ((r.serviceGroup c).FlagsRepeats ↔
      ∀ first, IsFirst Operation.lowerName (Text.sortByText Operation.name c.operations) first →
        ¬ r.IsServed first →
          ∀ o ∈ c.operations, o.lowerName = first.lowerName → ¬ r.IsServed o) := by
  have hperm : ∀ o, o ∈ Text.sortByText Operation.name c.operations ↔ o ∈ c.operations :=
    fun o => (Text.sortByText_perm _ _).mem_iff
  refine ⟨fun before m after h => exists_standsFor h, ?_⟩
  rw [flagsRepeats_iff_of_serviceMethods rfl]
  constructor
  · intro h first hfirst hskipped o ho hname hserved
    obtain ⟨earlier, next, later, hos, hnext, hsame, hnone⟩ :=
      exists_served_append ((hperm o).2 ho) hserved
    rw [← hsame] at hnone
    have hnew : IsFirst Operation.lowerName (Text.sortByText Operation.name c.operations) next := by
      refine ⟨earlier, later, hos, fun hmem => hnone ?_⟩
      exact h earlier next later hos hnext (List.mem_map.1 hmem)
    obtain rfl : next = first := hnew.unique hfirst (hsame.trans hname)
    exact hskipped hnext
  · intro h earlier o later hos hserved hrepeats
    obtain ⟨first, hmem, hfirst, hname⟩ := exists_isFirst_append hrepeats (o :: later)
    rw [← hos] at hfirst
    by_cases hskipped : r.IsServed first
    · exact ⟨first, hmem, hskipped, hname⟩
    · have ho : o ∈ c.operations := (hperm o).1 (hos ▸ by simp)
      exact absurd hserved (h first hfirst hskipped o ho hname.symm)

/-- A controller with two methods of one name, of which the first returns an ignored class. -/
def orderController : TypeDef where
  toDeclaration := ⟨"Shop", "", "OrderController", .classType⟩
  toBody := { Body.empty with
    base := some (.external "ApiController" [])
    methods := [⟨"GetOrder", .empty, [], some (.declared ⟨0⟩ [])⟩,
      ⟨"GetOrder", .empty, [⟨"id", .external "int" [], .empty⟩], some (.external "string" [])⟩] }

/-- The controller and the ignored class. -/
def orders : Registry where
  types := [secret, orderController]
  nodup := by decide

/-- The only method of the group is flagged. -/
theorem not_flagsRepeats_order :
    ∃ c ∈ orders.controllers ["ApiController"], ¬ (orders.serviceGroup c).FlagsRepeats := by
  let c := orders.controller ⟨1⟩ orderController
  have hcontroller : c ∈ orders.controllers ["ApiController"] :=
    mem_controllers.2 ⟨⟨1⟩, orderController, rfl, by decide +kernel, rfl⟩
  have hsorted : Text.sortByText Operation.name c.operations = c.operations :=
    List.mergeSort_of_pairwise (by decide +kernel)
  have hflags : (orders.serviceMethods c.group [] c.operations).map ServiceMethod.repeated =
      [true] := by decide +kernel
  rw [← hsorted] at hflags
  obtain ⟨m, hm, hflag⟩ := List.map_eq_singleton_iff.1 hflags
  refine ⟨c, hcontroller, fun h => ?_⟩
  obtain ⟨m', hm', _⟩ := (h [] m [] hm).1 hflag
  exact absurd hm' List.not_mem_nil

end Registry

end ApiClient
