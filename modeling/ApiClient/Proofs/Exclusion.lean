import ApiClient.Proofs.Expansion
import ApiClient.Proofs.Views
import ApiClient.Scan

/-!
# Methods with excluded types

A service leaves out the operations that mention an excluded type. Before that, parameters that are
marked to be expanded have given way to the properties of their types, and of one name the first is
left. So what a method declares and what its operation mentions are not the same.

Results:
* `forall_isFirst_plainParameters`: when no written out parameter is of an excluded type.
* `serves_iff`: a service has a method exactly if it has a verb and its operation mentions no
  excluded type.
* `Registry.RespectsExclusion`: the service has no method that declares an excluded type.
* `respectsExclusion_iff`: this holds exactly if no method of a controller gets around it, by
  expanding all such parameters or repeating names in place of them.
* `not_respectsExclusion_vault`: some method does.
-/

namespace ApiClient.Registry

variable {r : Registry} {bases : List String}

/-! ## Specification -/

/-- The method returns an excluded type or has a parameter of one. -/
def DeclaresExcluded (r : Registry) (m : MethodDef) : Prop :=
  (∃ t ∈ m.returns, (r.map false t).isExcluded = true) ∨
    ∃ p ∈ m.parameters, (r.map false p.type).isExcluded = true

/-- The service of the controllers has a method for a method of the class. -/
def Serves (r : Registry) (bases : List String) (d : TypeDef) (m : MethodDef) : Prop :=
  ∃ g ∈ (r.service (r.controllers bases)).groups, g.controller = d.name ∧
    ∃ s ∈ g.methods, ∃ repeated,
      r.serviceMethod? (groupName d.name) (r.operation (groupName d.name) m) repeated = some s

/-- The class is a controller. -/
def DeclaresController (r : Registry) (bases : List String) (d : TypeDef) : Prop :=
  ∃ id, r.get? id = some d ∧ r.isController bases d = true

/-- No method that declares an excluded type is served. -/
def RespectsExclusion (r : Registry) (bases : List String) : Prop :=
  ∀ d, r.DeclaresController bases d → ∀ m ∈ d.methods, r.DeclaresExcluded m →
    ¬ r.Serves bases d m

/-- The method declares excluded types, but only in parameters that its operation does not have:
they are expanded or repeat a name. -/
structure Circumvents (r : Registry) (m : MethodDef) : Prop where
  verb : (HttpVerb.classify m.name m.markers).isSome = true
  returns : ∀ t ∈ m.returns, (r.map false t).isExcluded = false
  declared : ∃ p ∈ m.parameters, (r.map false p.type).isExcluded = true
  /-- Each of these is marked to be expanded and names a declared type, or a parameter before it is
  written out under its name. -/
  avoided : ∀ ps p qs, m.parameters = ps ++ p :: qs → (r.map false p.type).isExcluded = true →
    (p.markers.contains .expandInline = true ∧ p.type.declaredId?.isSome = true) ∨
      ∃ q ∈ ps, r.expands? q = none ∧ q.name = p.name
  /-- The properties that come in are of other types. -/
  members : ∀ q, IsFirst Parameter.name (r.inlinedParameters m.parameters) q →
    q.name ∉ (r.plainParameters m.parameters).map Parameter.name →
      (r.map false q.type).isExcluded = false

/-! ## Excluded parameters -/

/-- An excluded type is no scalar, so that a parameter of one is expanded if it is marked and names
a declared type. -/
theorem expands?_eq_none_iff {p : ParameterDef} (h : (r.map false p.type).isExcluded = true) :
    r.expands? p = none ↔
      ¬ (p.markers.contains .expandInline = true ∧ p.type.declaredId?.isSome = true) := by
  have hscalar : (r.map false p.type).element.isScalar = false := by
    cases hmap : r.map false p.type with
    | excluded => rfl
    | primitive | date | array | model | any => simp [hmap, MappedType.isExcluded] at h
  unfold expands?
  rw [hscalar]
  cases p.markers.contains .expandInline <;> simp

/-- The written out parameters of an operation are of other types exactly if every excluded one of
the method is expanded or has the name of one before it. -/
theorem forall_isFirst_plainParameters {ps : List ParameterDef} :
    (∀ q, IsFirst Parameter.name (r.plainParameters ps) q →
        (r.map false q.type).isExcluded = false) ↔
      ∀ as p bs, ps = as ++ p :: bs → (r.map false p.type).isExcluded = true →
        (p.markers.contains .expandInline = true ∧ p.type.declaredId?.isSome = true) ∨
          ∃ q ∈ as, r.expands? q = none ∧ q.name = p.name := by
  constructor
  · intro h as p bs hps hexcluded
    by_cases hexpands : r.expands? p = none
    · by_cases hrepeats : ∃ q ∈ as, r.expands? q = none ∧ q.name = p.name
      · exact .inr hrepeats
      · have hfirst : IsFirst Parameter.name (r.plainParameters ps) ⟨p.name, p.type⟩ :=
          isFirst_plainParameters.2 ⟨as, p, bs, hps, hexpands, rfl,
            fun q hq hnone hname => hrepeats ⟨q, hq, hnone, hname⟩⟩
        have hother := h _ hfirst
        rw [hexcluded] at hother
        contradiction
    · exact .inl (Decidable.not_not.1 (mt (expands?_eq_none_iff hexcluded).2 hexpands))
  · intro h q hq
    obtain ⟨as, p, bs, hps, hexpands, rfl, has⟩ := isFirst_plainParameters.1 hq
    cases hexcluded : (r.map false p.type).isExcluded with
    | false => rfl
    | true =>
      rcases h as p bs hps hexcluded with hmarked | ⟨q, hq, hnone, hname⟩
      · exact absurd hmarked ((expands?_eq_none_iff hexcluded).1 hexpands)
      · exact absurd hname (has q hq hnone)

/-! ## Services -/

theorem isSome_serviceMethod? {group : String} {o : Operation} {repeated : Bool} :
    (r.serviceMethod? group o repeated).isSome = true ↔
      o.verb.isSome = true ∧ (∀ t ∈ o.returns, (r.map false t).isExcluded = false) ∧
        ∀ p ∈ o.parameters, (r.map false p.type).isExcluded = false := by
  unfold serviceMethod?
  cases hverb : o.verb with
  | none => simp
  | some verb =>
    have hreturns : (o.returns.elim .any (r.map false)).isExcluded = false ↔
        ∀ t ∈ o.returns, (r.map false t).isExcluded = false := by
      cases o.returns <;> simp [MappedType.isExcluded]
    simp [hreturns]

/-- Every operation that can be served has a method among those of its group. -/
theorem exists_mem_serviceMethods {group : String} {seen : List String} {os : List Operation}
    {o : Operation} (ho : o ∈ os)
    (h : ∀ repeated, (r.serviceMethod? group o repeated).isSome = true) :
    ∃ s ∈ r.serviceMethods group seen os, ∃ repeated,
      r.serviceMethod? group o repeated = some s := by
  induction os generalizing seen with
  | nil => simp at ho
  | cons a as ih =>
    rw [serviceMethods]
    rcases List.mem_cons.1 ho with rfl | ho
    · obtain ⟨s, hs⟩ := Option.isSome_iff_exists.1 (h (seen.contains (Text.lower o.name)))
      exact ⟨s, List.mem_append_left _ (Option.mem_toList.2 hs), _, hs⟩
    · obtain ⟨s, hs, repeated, hmethod⟩ := ih ho
      exact ⟨s, List.mem_append_right _ hs, repeated, hmethod⟩

theorem mem_controllers {c : Controller} :
    c ∈ r.controllers bases ↔
      ∃ id d, r.get? id = some d ∧ r.isController bases d = true ∧ c = r.controller id d := by
  rw [controllers, List.mem_map]
  constructor
  · rintro ⟨⟨id, d⟩, hfound, rfl⟩
    rw [(Text.sortByText_perm _ _).mem_iff, (Text.sortByTexts_perm _ _).mem_iff,
      List.mem_filterMap] at hfound
    obtain ⟨a, _, ha⟩ := hfound
    split at ha
    · rename_i e he
      obtain ⟨hcontroller, hpair⟩ := Option.ite_none_right_eq_some.1 ha
      obtain ⟨rfl, rfl⟩ := Prod.mk.inj (Option.some.inj hpair)
      exact ⟨a, e, he, hcontroller, rfl⟩
    · simp at ha
  · rintro ⟨id, d, hd, hcontroller, rfl⟩
    refine ⟨(id, d), ?_, rfl⟩
    rw [(Text.sortByText_perm _ _).mem_iff, (Text.sortByTexts_perm _ _).mem_iff,
      List.mem_filterMap]
    exact ⟨id, mem_ids.2 ⟨d, hd⟩, by simp [hd, hcontroller]⟩

/-- A method of a controller is served exactly if it has a verb, its result is not excluded and no
parameter of its operation is. -/
theorem serves_iff {d : TypeDef} (hd : r.DeclaresController bases d) {m : MethodDef}
    (hm : m ∈ d.methods) :
    r.Serves bases d m ↔
      (HttpVerb.classify m.name m.markers).isSome = true ∧
        (∀ t ∈ m.returns, (r.map false t).isExcluded = false) ∧
          ∀ q ∈ r.expandParameters m.parameters, (r.map false q.type).isExcluded = false := by
  have hmethod : ∀ repeated, (r.serviceMethod? (groupName d.name)
      (r.operation (groupName d.name) m) repeated).isSome = true ↔ _ :=
    fun repeated => isSome_serviceMethod?
  constructor
  · rintro ⟨g, _, _, s, _, repeated, hs⟩
    exact (hmethod repeated).1 (hs ▸ rfl)
  · intro h
    obtain ⟨id, hget, hcontroller⟩ := hd
    have hc : r.controller id d ∈ r.controllers bases :=
      mem_controllers.2 ⟨id, d, hget, hcontroller, rfl⟩
    have ho : r.operation (groupName d.name) m ∈
        Text.sortByText Operation.name (r.controller id d).operations :=
      (Text.sortByText_perm _ _).mem_iff.2 (List.mem_map_of_mem hm)
    refine ⟨r.serviceGroup (r.controller id d), serviceGroup_mem_service hc, rfl, ?_⟩
    exact exists_mem_serviceMethods ho fun repeated => (hmethod repeated).2 h

/-! ## Exclusion -/

/-- A method that declares an excluded type is served exactly if it gets around the exclusion. -/
theorem declaresExcluded_and_serves_iff {d : TypeDef} (hd : r.DeclaresController bases d)
    {m : MethodDef} (hm : m ∈ d.methods) :
    r.DeclaresExcluded m ∧ r.Serves bases d m ↔ r.Circumvents m := by
  rw [serves_iff hd hm]
  constructor
  · rintro ⟨hdeclares, hverb, hreturns, hparameters⟩
    refine ⟨hverb, hreturns, ?_, ?_, ?_⟩
    · rcases hdeclares with ⟨t, ht, hexcluded⟩ | hparameter
      · rw [hreturns t ht] at hexcluded
        contradiction
      · exact hparameter
    · exact forall_isFirst_plainParameters.1 fun q hq =>
        hparameters q (mem_expandParameters.2 (.inl hq))
    · intro q hq hname
      exact hparameters q (mem_expandParameters.2 (.inr ⟨hname, hq⟩))
  · rintro ⟨hverb, hreturns, hdeclared, havoided, hmembers⟩
    refine ⟨.inr hdeclared, hverb, hreturns, ?_⟩
    intro q hq
    rcases mem_expandParameters.1 hq with hplain | ⟨hname, hinlined⟩
    · exact forall_isFirst_plainParameters.2 havoided q hplain
    · exact hmembers q hinlined hname

/-- The service leaves out every method that declares an excluded type, exactly if no method of a
controller has all such parameters expanded or hidden by their names. -/
theorem respectsExclusion_iff (r : Registry) (bases : List String) :
    r.RespectsExclusion bases ↔
      ∀ d, r.DeclaresController bases d → ∀ m ∈ d.methods, ¬ r.Circumvents m := by
  constructor
  · intro h d hd m hm hcircumvents
    obtain ⟨hdeclares, hserves⟩ := (declaresExcluded_and_serves_iff hd hm).2 hcircumvents
    exact h d hd m hm hdeclares hserves
  · intro h d hd m hm hdeclares hserves
    exact h d hd m hm ((declaresExcluded_and_serves_iff hd hm).1 ⟨hdeclares, hserves⟩)

/-- A class that is ignored, with one property. -/
def secret : TypeDef where
  toDeclaration := ⟨"Shop", "", "Secret", .classType⟩
  toBody := { Body.empty with
    markers := .ofList [.ignore]
    properties := [⟨"Id", .external "int" [], .empty, none⟩] }

/-- A method with a parameter of that class that is to be expanded. -/
def getItem : MethodDef :=
  ⟨"GetItem", .empty, [⟨"secret", .declared ⟨0⟩ [], .ofList [.expandInline]⟩], none⟩

/-- A controller with that method. -/
def vaultController : TypeDef where
  toDeclaration := ⟨"Shop", "", "VaultController", .classType⟩
  toBody := { Body.empty with
    base := some (.external "ApiController" [])
    methods := [getItem] }

/-- The two classes. -/
def vault : Registry where
  types := [secret, vaultController]
  nodup := by decide

/-- The property stands for the parameter, so the method is served. -/
theorem not_respectsExclusion_vault : ¬ vault.RespectsExclusion ["ApiController"] := by
  intro h
  have hcontroller : vault.DeclaresController ["ApiController"] vaultController :=
    ⟨⟨1⟩, rfl, by decide +kernel⟩
  have hdeclares : vault.DeclaresExcluded getItem := .inr ⟨_, .head _, by decide +kernel⟩
  have hverb : (HttpVerb.classify getItem.name getItem.markers).isSome = true := by decide +kernel
  have hparameters : ∀ q ∈ vault.expandParameters getItem.parameters,
      (vault.map false q.type).isExcluded = false := by
    have hall : (vault.expandParameters getItem.parameters).all
        (fun q => !(vault.map false q.type).isExcluded) = true := by decide +kernel
    intro q hq
    simpa using List.all_eq_true.1 hall q hq
  have hserves : vault.Serves ["ApiController"] vaultController getItem :=
    (serves_iff hcontroller (.head _)).2 ⟨hverb, by simp [getItem], hparameters⟩
  exact h vaultController hcontroller getItem (.head _) hdeclares hserves

end ApiClient.Registry
