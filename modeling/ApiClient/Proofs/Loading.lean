import ApiClient.Collections.Distinct
import ApiClient.Loading
import ApiClient.Proofs.Resolution

/-!
# What loading gives

`Loader.load` declares all types of the queued documents before it fills in the members of any.
Filling in changes no name, so it does not matter how far it has come when an expression is
resolved.

* `Describes`: a declared type is what a document says, resolved in a registry.

Results:
* `declareAll_spec`: of the types of one key the first is declared, and the place of a type in the
  registry is its place among these.
* `foldl_update_types`: filling in goes through the declared types once.
* `isVoid_resolve_iff`, `describes_iff`: which results carry no value; a description determines the
  type.
* `load_types`: the types of the registry are the declared ones with their members.
* `load_sameNames`: the loaded registry has the names against which members were resolved.
* `mem_load_types`: its types are the first of each key, described by their documents in it.
-/

namespace ApiClient.Loader

/-- What tells the types of modules apart. -/
def key (p : String × TypeDocument) : String × String :=
  (declaration p.1 p.2).key

/-- A type of a module as it is declared, without members. -/
def bare (p : String × TypeDocument) : TypeDef :=
  (declaration p.1 p.2).bare

/-- A method with its expressions, resolved against a registry. -/
def filledMethod (r : Registry) (module : String) (m : MethodDocument) : MethodDef where
  name := m.name
  markers := .ofNames m.markers
  parameters := m.parameters.map fun p => ⟨p.name, r.resolve module p.type, .ofNames p.markers⟩
  returns := (m.returns.map (r.resolve module)).filter (!·.isVoid)

/-- A type of a module with its members, resolved against a registry. -/
def filled (r : Registry) (p : String × TypeDocument) : TypeDef :=
  { declaration p.1 p.2, body r p.1 p.2 with }

/-- The expression stands for a plain `void` or asynchronous result of a library. -/
def IsVoid (r : Registry) (module : String) (e : TypeExpr) : Prop :=
  ∃ name, e = .named name [] ∧ r.lookup name module = none ∧
    (ExternalKind.classify name = .void ∨ ExternalKind.classify name = .task)

/-- The method of a document, with its expressions resolved. It returns what its expression stands
for, unless that carries no value. -/
structure DescribesMethod (r : Registry) (module : String) (m : MethodDocument) (n : MethodDef) :
    Prop where
  name : n.name = m.name
  markers : n.markers = .ofNames m.markers
  parameters : n.parameters = m.parameters.map fun p =>
    ⟨p.name, r.resolve module p.type, .ofNames p.markers⟩
  returns : ∀ t, n.returns = some t ↔
    ∃ e, m.returns = some e ∧ ¬ IsVoid r module e ∧ t = r.resolve module e

/-- The type of a module as its document describes it, with all expressions resolved from the
module. -/
structure Describes (r : Registry) (module : String) (t : TypeDocument) (d : TypeDef) : Prop where
  owner : d.module = module
  space : d.space = t.space
  name : d.name = t.name
  kind : d.kind = t.kind
  isAbstract : d.isAbstract = t.isAbstract
  markers : d.markers = .ofNames t.markers
  doc : d.doc = t.doc
  base : d.base = t.base.map (r.resolve module)
  properties : d.properties = t.properties.map fun p =>
    ⟨p.name, r.resolve module p.type, .ofNames p.markers, p.doc⟩
  constants : d.constants = t.constants.map fun c =>
    ⟨c.name, r.resolve module c.type, c.valueText, c.readonly⟩
  values : d.values = t.values.map fun v => ⟨v.name, v.value⟩
  methods : List.Forall₂ (DescribesMethod r module) t.methods d.methods

/-- The types to declare in a registry: of one key the first, unless the registry has it. -/
def fresh (r : Registry) (ts : List (String × TypeDocument)) : List (String × TypeDocument) :=
  distinctBy key (r.types.map fun d => d.key) ts

/-! ## Declaring -/

/-- The types that are left out have a key that is declared already. -/
theorem declareAll_spec (r : Registry) (ts : List (String × TypeDocument)) :
    (declareAll r ts).1.types = r.types ++ (fresh r ts).map bare ∧
      (declareAll r ts).2 =
        ((fresh r ts).zipIdx r.types.length).map fun p => (⟨p.2⟩, p.1.1, p.1.2) := by
  induction ts generalizing r with
  | nil => simp [declareAll, fresh]
  | cons p ts ih =>
    obtain ⟨module, t⟩ := p
    unfold declareAll
    by_cases h : (declaration module t).key ∈ r.types.map fun d => d.key
    · have hfresh : fresh r ((module, t) :: ts) = fresh r ts := by
        rw [fresh, distinctBy, if_pos (show key (module, t) ∈ _ from h), fresh]
      rw [Registry.register_of_mem h, hfresh]
      exact ih r
    · have hfresh : fresh r ((module, t) :: ts) = (module, t) :: fresh (r.push _ h) ts := by
        rw [fresh, distinctBy, if_neg (show key (module, t) ∉ _ from h), fresh,
          Registry.types_push]
        refine congrArg _ (distinctBy_congr (fun k => ?_) ts)
        simp [key, or_comm]
      obtain ⟨h1, h2⟩ := ih (r.push _ h)
      rw [Registry.register_of_not_mem h, hfresh]
      refine ⟨?_, ?_⟩
      · simp only [h1, Registry.types_push, List.map_cons, List.append_assoc,
          List.singleton_append]
        rfl
      · simp only [h2, Registry.types_push, List.zipIdx_cons, List.map_cons, List.length_append,
          List.length_singleton]

/-! ## Filling in -/

theorem modify_length_append {α : Type} (as : List α) (a : α) (bs : List α) (f : α → α) :
    (as ++ a :: bs).modify as.length f = as ++ f a :: bs := by
  rw [List.modify_eq_take_cons_drop (by simp)]
  simp

theorem body_congr {r r' : Registry} (h : r.SameNames r') (module : String) (t : TypeDocument) :
    body r module t = body r' module t := by
  have hresolve : r.resolve module = r'.resolve module := funext (h.resolve module)
  simp only [body, hresolve]

/-- The invariant of the updates: what comes before the current place is filled in, the rest is as
it was declared, and the names are those that all types have from the start. -/
theorem foldl_update_types (names r : Registry) (hnames : r.SameNames names) (pre : List TypeDef)
    (ps : List (String × TypeDocument)) (h : r.types = pre ++ ps.map bare) :
    (((ps.zipIdx pre.length).map fun p => ((⟨p.2⟩ : TypeId), p.1.1, p.1.2)).foldl
      (fun r (id, module, t) => r.update id fun _ => body r module t) r).types =
        pre ++ ps.map (filled names) := by
  induction ps generalizing r pre with
  | nil => simpa using h
  | cons p ps ih =>
    obtain ⟨module, t⟩ := p
    have hstep : (r.update ⟨pre.length⟩ fun _ => body r module t).types =
        (pre ++ [filled names (module, t)]) ++ ps.map bare := by
      change r.types.modify pre.length _ = _
      rw [h, List.map_cons, modify_length_append, List.append_assoc, body_congr hnames]
      rfl
    have hrest := ih _ ((r.sameNames_update _ _).trans hnames) _ hstep
    rw [List.length_append, List.length_singleton] at hrest
    rw [List.zipIdx_cons, List.map_cons, List.foldl_cons]
    rw [hrest, List.append_assoc]
    rfl

/-! ## Describing -/

variable {r : Registry} {module : String}

theorem isVoid_resolve_iff {e : TypeExpr} :
    (r.resolve module e).isVoid = true ↔ IsVoid r module e := by
  cases e with
  | array e => simp [Registry.resolve_array, TypeRef.isVoid, IsVoid]
  | named name args =>
    rw [Registry.resolve_named]
    cases hlookup : r.lookup name module with
    | some id => simp [TypeRef.isVoid, IsVoid, hlookup]
    | none =>
      cases args with
      | cons a as => simp [TypeRef.isVoid, IsVoid]
      | nil =>
        simp only [List.map_nil, TypeRef.isVoid, ExternalType.kind_ofName, IsVoid,
          TypeExpr.named.injEq, and_true, exists_eq_left', hlookup, true_and]
        cases ExternalKind.classify name <;> simp

theorem mem_filter_isVoid {returns : Option TypeExpr} {t : TypeRef} :
    (returns.map (r.resolve module)).filter (!·.isVoid) = some t ↔
      ∃ e, returns = some e ∧ ¬ IsVoid r module e ∧ t = r.resolve module e := by
  rw [Option.filter_eq_some_iff, Option.map_eq_some_iff]
  constructor
  · rintro ⟨⟨e, he, rfl⟩, hvoid⟩
    refine ⟨e, he, fun h => ?_, rfl⟩
    simp [isVoid_resolve_iff.2 h] at hvoid
  · rintro ⟨e, he, hvoid, rfl⟩
    rw [← isVoid_resolve_iff] at hvoid
    exact ⟨⟨e, he, rfl⟩, by simpa using hvoid⟩

theorem describesMethod_iff {m : MethodDocument} {n : MethodDef} :
    DescribesMethod r module m n ↔ filledMethod r module m = n := by
  constructor
  · rintro ⟨hname, hmarkers, hparameters, hreturns⟩
    have hreturned : n.returns = (m.returns.map (r.resolve module)).filter (!·.isVoid) :=
      Option.ext fun t => (hreturns t).trans mem_filter_isVoid.symm
    cases n
    simp_all [filledMethod]
  · rintro rfl
    exact ⟨rfl, rfl, rfl, fun t => mem_filter_isVoid⟩

theorem describesMethods_iff {ms : List MethodDocument} {ns : List MethodDef} :
    List.Forall₂ (DescribesMethod r module) ms ns ↔ ms.map (filledMethod r module) = ns := by
  have hrelation : DescribesMethod r module = fun m n => filledMethod r module m = n := by
    funext m n
    exact propext describesMethod_iff
  rw [hrelation, ← List.forall₂_map_left_iff (R := Eq), List.forall₂_eq_eq_eq]

/-- A description determines the type. -/
theorem describes_iff {t : TypeDocument} {d : TypeDef} :
    Describes r module t d ↔ d = filled r (module, t) := by
  constructor
  · rintro ⟨howner, hspace, hname, hkind, habstract, hmarkers, hdoc, hbase, hproperties, hconstants,
      hvalues, hmethods⟩
    have hbody : d.toBody = body r module t := by
      rw [body, ← habstract, ← hbase, ← hmarkers, ← hdoc, ← hproperties, ← hconstants, ← hvalues]
      have hfilled : d.methods = t.methods.map (filledMethod r module) :=
        (describesMethods_iff.1 hmethods).symm
      exact congrArg (fun ms => { d.toBody with methods := ms }) hfilled
    have hdeclaration : d.toDeclaration = declaration module t := by
      rw [declaration, ← howner, ← hspace, ← hname, ← hkind]
    rw [filled, ← hbody, ← hdeclaration]
  · rintro rfl
    exact ⟨rfl, rfl, rfl, rfl, rfl, rfl, rfl, rfl, rfl, rfl, rfl, describesMethods_iff.2 rfl⟩

/-! ## Loading -/

/-- The registry of the names of the queued documents, in which members are resolved. -/
def bareRegistry (l : Loader) : Registry :=
  (declareAll .empty l.types).1

theorem bareRegistry_types (l : Loader) : l.bareRegistry.types = (fresh .empty l.types).map bare :=
  (declareAll_spec .empty l.types).1

theorem load_types (l : Loader) :
    l.load.registry.types = (fresh .empty l.types).map (filled l.bareRegistry) := by
  have hdeclared := (declareAll_spec .empty l.types).2
  change ((declareAll .empty l.types).2.foldl _ (declareAll .empty l.types).1).types = _
  rw [hdeclared]
  exact foldl_update_types l.bareRegistry l.bareRegistry rfl [] _ (bareRegistry_types l)

theorem load_sameNames (l : Loader) : l.load.registry.SameNames l.bareRegistry := by
  rw [Registry.SameNames, load_types, bareRegistry_types, List.map_map, List.map_map]
  rfl

theorem filled_congr {r r' : Registry} (h : r.SameNames r') (p : String × TypeDocument) :
    filled r p = filled r' p := by
  rw [filled, filled, body_congr h]

/-- What is declared is the first type of each key, resolved against the loaded registry. -/
theorem mem_load_types {l : Loader} {d : TypeDef} : d ∈ l.load.registry.types ↔
    ∃ p, IsFirst key l.types p ∧ d = filled l.load.registry p := by
  rw [load_types, List.mem_map]
  simp only [fresh, Registry.empty, List.map_nil, mem_distinctBy_nil_iff,
    filled_congr l.load_sameNames, eq_comm]

/-- Without repeated keys every type is declared. -/
theorem fresh_empty_of_nodup {ts : List (String × TypeDocument)} (h : (ts.map key).Nodup) :
    fresh .empty ts = ts :=
  distinctBy_eq_self h (by simp [Registry.empty])

end ApiClient.Loader
