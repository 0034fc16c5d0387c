import ApiClient.Dialect.Angular
import ApiClient.Proofs.Renaming.Views
import ApiClient.Proofs.ScanClosure

/-!
# Imports of classes

A class names models as its base, in the types of its fields and constants, and in the statements
that revive its fields. Its imports are taken from the base and the effective properties alone, and
so is the use of the library for dates.

Results:
* `get?_of_map`: the name that a mapped type shows is that of a declared type.
* `mem_imports_view`: the names among the imports of a class.
* `mem_annotations`: the annotations of a class, as its template gets them.
* `imports_of_mem_all`: the imports suffice for the effective properties.
* `importsSuffice_iff`: they suffice for the class exactly if they do for its readonly statics and,
  with a model base, for the properties that repeat a name.
* `not_importsSuffice_pen`: for some class they do not.
-/

namespace ApiClient

namespace MappedType

/-! ## Spelling -/

theorem display_array (t : MappedType) : (array t).display = t.display ++ "[]" := rfl

/-- A type is spelled as what it is below all arrays, with brackets for each of these. -/
theorem display_eq (t : MappedType) :
    ∃ n, t.display = t.element.display ++ String.join (List.replicate n "[]") := by
  induction t with
  | array t ih =>
    obtain ⟨n, hn⟩ := ih
    refine ⟨n + 1, ?_⟩
    rw [display_array, hn, element, List.replicate_succ', String.join_append, ← String.append_assoc]
    rfl
  | _ => exact ⟨0, by simp [element]⟩

/-- A type that refers to a model shows its name. -/
theorem display_of_model? {t : MappedType} {m : TypeId × String} (h : t.model? = some m) :
    ∃ n, t.display = m.2 ++ String.join (List.replicate n "[]") := by
  have hname : t.element.display = m.2 := by
    unfold model? at h
    split at h
    · rename_i hmodel
      rw [hmodel, ← Option.some.inj h]
      rfl
    · simp at h
  exact hname ▸ t.display_eq

/-- A type that mentions dates shows the type of moments. -/
theorem display_of_mentionsDate {t : MappedType} (h : t.mentionsDate = true) :
    ∃ n, t.display = "moment.Moment" ++ String.join (List.replicate n "[]") := by
  have hmoment : t.element.display = "moment.Moment" := by
    unfold mentionsDate at h
    split at h
    · rename_i hdate
      rw [hdate]
      rfl
    · simp at h
  exact hmoment ▸ t.display_eq

end MappedType

namespace Registry

variable {r : Registry} {id : TypeId} {d : TypeDef}

/-! ## Names -/

/-- The name that a mapped type shows for a model is that of its declaration. -/
theorem get?_of_map {utc : Bool} {t : TypeRef} {m : TypeId × String}
    (h : (r.map utc t).model? = some m) : ∃ e, r.get? m.1 = some e ∧ e.name = m.2 := by
  induction t using TypeRef.induction with
  | declared id args ih =>
    obtain ⟨hignored, hcases⟩ := map_declared_cases h
    rcases hcases with ⟨hmodel, _⟩ | ⟨_, t, ht, hm⟩
    · have hdeclared : ∃ e, r.get? id = some e := by
        unfold isModelOrEnum isModel isEnum at hmodel
        cases hget : r.get? id with
        | none => simp [hget] at hmodel
        | some e => exact ⟨e, rfl⟩
      obtain ⟨e, he⟩ := hdeclared
      rw [map, hignored, hmodel, if_neg (by simp), if_pos rfl, he] at h
      obtain rfl := Option.some.inj h
      exact ⟨e, he, rfl⟩
    · exact ih t ht hm
  | external type args ih =>
    obtain ⟨t, ht, hm⟩ := exists_of_map_external h
    exact ih t ht hm
  | array t ih =>
    rw [map, MappedType.model?_arrayOf] at h
    exact ih h

theorem mem_collect {is : List Import} {name : String} :
    name ∈ (Import.collect is).map Import.name ↔ name ∈ is.map Import.name := by
  rw [Import.collect_eq, ((Text.sortByText_perm _ _).map Import.name).mem_iff]
  constructor
  · intro h
    obtain ⟨i, hi, rfl⟩ := List.mem_map.1 h
    exact List.mem_map_of_mem (List.mem_reverse.1 (mem_distinctBy hi).1)
  · intro h
    obtain ⟨i, hi, rfl⟩ := List.mem_map.1 h
    have hkept : ∃ j ∈ distinctBy Import.name [] is.reverse, j.name = i.name :=
      exists_mem_distinctBy (List.mem_reverse.2 hi) List.not_mem_nil
    obtain ⟨j, hj, hname⟩ := hkept
    exact hname ▸ List.mem_map_of_mem hj

/-- A class imports its base and the models of its effective properties, itself apart. -/
theorem mem_imports_view {name : String} :
    name ∈ (r.view id d).imports.map Import.name ↔
      (∃ b, (r.view id d).base = some b ∧ b.name = name) ∨
        ∃ q ∈ (r.view id d).all, ∃ child, child ≠ id ∧ q.type.model? = some (child, name) := by
  have himports : (r.view id d).imports = Import.collect
      (((r.view id d).base.map fun b => ⟨b.name, b.isConstructible⟩).toList ++
        (r.view id d).all.filterMap (r.propertyImport? id)) := rfl
  have hproperty : ∀ q : MappedProperty, (∃ i, r.propertyImport? id q = some i ∧ i.name = name) ↔
      ∃ child, child ≠ id ∧ q.type.model? = some (child, name) := by
    intro q
    unfold propertyImport?
    cases hmodel : q.type.model? with
    | none => simp
    | some m =>
      obtain ⟨child, shown⟩ := m
      by_cases hchild : child = id <;> simp [hchild]
  have hbase : name ∈ ((r.view id d).base.map fun b =>
      (⟨b.name, b.isConstructible⟩ : Import)).toList.map Import.name ↔
        ∃ b, (r.view id d).base = some b ∧ b.name = name := by
    cases (r.view id d).base <;> simp [eq_comm]
  rw [himports, mem_collect, List.map_append, List.mem_append, hbase]
  simp only [List.mem_map, List.mem_filterMap]
  refine or_congr_right ⟨?_, ?_⟩
  · rintro ⟨i, ⟨q, hq, hi⟩, hname⟩
    exact ⟨q, hq, (hproperty q).1 ⟨i, hi, hname⟩⟩
  · rintro ⟨q, hq, hmodel⟩
    obtain ⟨i, hi, hname⟩ := (hproperty q).2 hmodel
    exact ⟨i, ⟨q, hq, hi⟩, hname⟩

/-! ## Annotations -/

/-- A constant is written into its class: a literal if it is a number or a text, a readonly static
if the class is marked to emit these and the type is not excluded. -/
def Emits (r : Registry) (d : TypeDef) (c : ConstantDef) : Prop :=
  if c.readonly then
    d.hasMarker .emitStaticReadonly = true ∧ (r.map false c.type).isExcluded = false
  else r.map false c.type = .primitive .number ∨ r.map false c.type = .primitive .string

theorem literalConstant?_eq_some {c : ConstantDef} {k : MappedConstant} :
    r.literalConstant? c = some k ↔ c.readonly = false ∧
      (r.map false c.type = .primitive .number ∨ r.map false c.type = .primitive .string) ∧
        mappedConstant c (r.map false c.type) = k := by
  cases hreadonly : c.readonly with
  | true => simp [literalConstant?, hreadonly]
  | false =>
    simp only [literalConstant?, hreadonly, Bool.false_eq_true, if_false]
    split
    · rename_i htype
      simp [htype]
    · rename_i htype
      simp [htype]
    · rename_i hnumber hstring
      have htype : ¬(r.map false c.type = .primitive .number ∨
          r.map false c.type = .primitive .string) := not_or.2 ⟨hnumber, hstring⟩
      simp [htype]

theorem readonlyConstant?_eq_some {c : ConstantDef} {k : MappedConstant} :
    r.readonlyConstant? c = some k ↔ c.readonly = true ∧
      (r.map false c.type).isExcluded = false ∧ mappedConstant c (r.map false c.type) = k := by
  simp [readonlyConstant?, and_assoc]

theorem mem_mappedConstants {k : MappedConstant} :
    k ∈ r.mappedConstants d ↔
      ∃ c ∈ d.constants, r.Emits d c ∧ mappedConstant c (r.map false c.type) = k := by
  have hreadonly : (k ∈ if d.hasMarker .emitStaticReadonly then
      Text.sortByText MappedConstant.name (d.constants.filterMap r.readonlyConstant?) else []) ↔
        d.hasMarker .emitStaticReadonly = true ∧
          ∃ c ∈ d.constants, r.readonlyConstant? c = some k := by
    split <;> rename_i hmarker <;>
      simp [hmarker, (Text.sortByText_perm _ _).mem_iff, List.mem_filterMap]
  rw [mappedConstants, List.mem_append, hreadonly, (Text.sortByText_perm _ _).mem_iff,
    List.mem_filterMap]
  constructor
  · rintro (⟨c, hc, hk⟩ | ⟨hmarker, c, hc, hk⟩)
    · obtain ⟨hliteral, htype, hk⟩ := literalConstant?_eq_some.1 hk
      exact ⟨c, hc, by simp [Emits, hliteral, htype], hk⟩
    · obtain ⟨hstatic, htype, hk⟩ := readonlyConstant?_eq_some.1 hk
      exact ⟨c, hc, by simp [Emits, hstatic, hmarker, htype], hk⟩
  · rintro ⟨c, hc, hemits, hk⟩
    unfold Emits at hemits
    split at hemits
    · rename_i hstatic
      exact .inr ⟨hemits.1, c, hc, readonlyConstant?_eq_some.2 ⟨hstatic, hemits.2, hk⟩⟩
    · rename_i hliteral
      exact .inl ⟨c, hc, literalConstant?_eq_some.2 ⟨by simpa using hliteral, hemits, hk⟩⟩

/-- The mapped types that the fields and the constants of a class are annotated with. -/
inductive Annotates (r : Registry) (id : TypeId) (d : TypeDef) : MappedType → Prop
  | field {q : MappedProperty} : q ∈ (r.view id d).declared → r.Annotates id d q.type
  | constant {c : ConstantDef} :
    c ∈ d.constants → r.Emits d c → r.Annotates id d (r.map false c.type)

end Registry

/-- The annotations of a class: of its fields, then of its constants. -/
def Angular.ClassContext.annotations (c : Angular.ClassContext) : List String :=
  c.properties.map (·.typeName) ++ c.constants.map (·.typeName)

namespace Registry

variable {r : Registry} {id : TypeId} {d : TypeDef}

/-- What the template of a class writes as annotations is how their types are spelled. -/
theorem mem_annotations {o : Options} {text : String} :
    text ∈ (Angular.classContext o (r.view id d)).annotations ↔
      ∃ t, r.Annotates id d t ∧ t.display = text := by
  simp only [Angular.ClassContext.annotations, Angular.classContext, List.map_map, List.mem_append,
    List.mem_map, Function.comp_apply]
  have hconstants : (r.view id d).constants = r.mappedConstants d := rfl
  rw [hconstants]
  constructor
  · rintro (⟨q, hq, htext⟩ | ⟨k, hk, htext⟩)
    · exact ⟨q.type, .field hq, htext⟩
    · obtain ⟨c, hc, hemits, rfl⟩ := mem_mappedConstants.1 hk
      exact ⟨_, .constant hc hemits, htext⟩
  · rintro ⟨t, ht, htext⟩
    cases ht with
    | field hq => exact .inl ⟨_, hq, htext⟩
    | constant hc hemits => exact .inr ⟨_, mem_mappedConstants.2 ⟨_, hc, hemits, rfl⟩, htext⟩

/-- With a model base, the own properties are annotated as they are written. -/
theorem annotates_of_mem_properties (hbase : (r.modelBase? id).isSome) {p : PropertyDef}
    (hp : p ∈ d.properties) (hexcluded : (r.mapProperty p).isExcluded = false) :
    r.Annotates id d (r.mapProperty p) := by
  let q : MappedProperty := ⟨p.name, r.mapProperty p,
    ((r.mapProperty p).model?.map fun m => r.isConstructible m.1).getD false⟩
  have hq : r.mappedProperty? p = some q := mappedProperty?_eq_some.2 ⟨hexcluded, rfl, rfl, rfl⟩
  have hdeclared : q ∈ (r.view id d).declared := by
    rw [mem_view_declared, if_pos hbase]
    exact ⟨p, hp, hq⟩
  exact .field hdeclared

/-! ## What the imports declare -/

/-- The short names of models that a class names: its base, and the models in annotations and in the
statements that construct them. -/
inductive Mentions (r : Registry) (id : TypeId) (d : TypeDef) : String → Prop
  | base {b : TypeDef} : (r.view id d).base = some b → r.Mentions id d b.name
  | annotated {t : MappedType} {m : TypeId × String} :
    r.Annotates id d t → t.model? = some m → r.Mentions id d m.2
  | construction {p : String × String} :
    p ∈ (r.view id d).modelProperties ++ (r.view id d).modelArrayProperties →
      r.Mentions id d p.2

/-- A class names the library for dates: in an annotation or in a statement that revives a date. -/
inductive MentionsMoment (r : Registry) (id : TypeId) (d : TypeDef) : Prop
  | annotated {t : MappedType} :
    r.Annotates id d t → t.mentionsDate = true → r.MentionsMoment id d
  | revival {utc : Bool} {p : String} :
    p ∈ (r.view id d).dateProperties utc → r.MentionsMoment id d

/-- The imports of a class declare all that it names besides itself. -/
structure ImportsSuffice (r : Registry) (o : Options) (id : TypeId) (d : TypeDef) : Prop where
  models : ∀ name, r.Mentions id d name →
    name = (Angular.classContext o (r.view id d)).name ∨
      name ∈ (Angular.classContext o (r.view id d)).imports.map Import.name
  moment : r.MentionsMoment id d → (Angular.classContext o (r.view id d)).usesMoment = true

/-- The imports of a class suffice for a mapped type: its model is the class itself or imported, and
the library for dates is imported if the type mentions them. -/
def Imports (r : Registry) (id : TypeId) (d : TypeDef) (t : MappedType) : Prop :=
  (∀ m, t.model? = some m → m.2 = d.name ∨ m.2 ∈ (r.view id d).imports.map Import.name) ∧
    (t.mentionsDate = true → (r.view id d).usesMoment = true)

theorem imports_of_isExcluded {t : MappedType} (h : t.isExcluded = true) : r.Imports id d t := by
  cases t with
  | excluded => exact ⟨nofun, nofun⟩
  | _ => simp [MappedType.isExcluded] at h

/-- The imports suffice for the type of an effective property. -/
theorem imports_of_mem_all (hd : r.get? id = some d) {q : MappedProperty}
    (hq : q ∈ (r.view id d).all) : r.Imports id d q.type := by
  constructor
  · intro m hm
    by_cases hself : m.1 = id
    · obtain ⟨p, _, hpq⟩ := mem_view_all.1 hq
      rw [(mappedProperty?_eq_some.1 hpq).2.2.1] at hm
      obtain ⟨e, he, hname⟩ := get?_of_map hm
      rw [hself, hd] at he
      exact .inl (hname ▸ congrArg (fun e : TypeDef => e.name) (Option.some.inj he).symm)
    · exact .inr (mem_imports_view.2 (.inr ⟨q, hq, m.1, hself, hm⟩))
  · intro hdate
    exact List.any_eq_true.2 ⟨q, hq, hdate⟩

/-- A constant that is no readonly static is a number or a text. -/
theorem imports_of_literal {c : ConstantDef} (hemits : r.Emits d c)
    (hliteral : c.readonly = false) : r.Imports id d (r.map false c.type) := by
  simp only [Emits, hliteral, Bool.false_eq_true, if_false] at hemits
  rcases hemits with htype | htype <;> rw [htype] <;> exact ⟨nofun, nofun⟩

/-- The imports suffice for all annotations if they do for the readonly statics and, with a model
base, for the properties that repeat a name. -/
theorem imports_of_annotates (hd : r.get? id = some d)
    (hstatics : ∀ c ∈ d.constants, c.readonly = true → d.hasMarker .emitStaticReadonly = true →
      r.Imports id d (r.map false c.type))
    (hrepeats : (r.modelBase? id).isSome → ∀ p, d.Repeats p → r.Imports id d (r.mapProperty p))
    {t : MappedType} (ht : r.Annotates id d t) : r.Imports id d t := by
  cases ht with
  | @field q hq =>
    rw [mem_view_declared] at hq
    split at hq
    · rename_i hbase
      obtain ⟨p, hp, hpq⟩ := hq
      obtain ⟨ps, qs, hps⟩ := List.append_of_mem hp
      by_cases hname : p.name ∈ ps.map PropertyDef.name
      · rw [(mappedProperty?_eq_some.1 hpq).2.2.1]
        exact hrepeats hbase p ⟨ps, qs, hps, hname⟩
      · have hall : p ∈ r.allProperties id := mem_allProperties_of_first hd hps hname
        exact imports_of_mem_all hd (mem_view_all.2 ⟨p, hall, hpq⟩)
    · exact imports_of_mem_all hd hq
  | @constant c hc hemits =>
    cases hreadonly : c.readonly with
    | true =>
      have hmarker : d.hasMarker .emitStaticReadonly = true := by
        simp only [Emits, hreadonly, if_true] at hemits
        exact hemits.1
      exact hstatics c hc hreadonly hmarker
    | false => exact imports_of_literal hemits hreadonly

/-- What a class constructs are models of its effective properties that can be instantiated. -/
theorem exists_of_mem_constructions {p : String × String}
    (h : p ∈ (r.view id d).modelProperties ++ (r.view id d).modelArrayProperties) :
    ∃ q ∈ (r.view id d).all, q.constructible = true ∧
      ∃ child, q.type.model? = some (child, p.2) := by
  rcases List.mem_append.1 h with h | h <;>
  · obtain ⟨q, hq, hp⟩ := List.mem_filterMap.1 h
    split at hp
    · rename_i child name htype
      obtain ⟨hconstructible, hp⟩ := Option.ite_none_right_eq_some.1 hp
      obtain rfl := Option.some.inj hp
      exact ⟨q, hq, hconstructible, child, by rw [htype]; rfl⟩
    · simp at hp

theorem usesMoment_of_mem_dateProperties {v : ModelView} {utc : Bool} {p : String}
    (h : p ∈ v.dateProperties utc) : v.usesMoment = true := by
  obtain ⟨q, hq, hp⟩ := List.mem_filterMap.1 h
  obtain ⟨htype, _⟩ := Option.ite_none_right_eq_some.1 hp
  exact List.any_eq_true.2 ⟨q, hq, by rw [htype]; rfl⟩

/-- The imports of a class suffice exactly if they do for its readonly statics, which are written
if the class is marked to emit them, and for the properties that repeat a name, which are written
if the base is a model. In particular they suffice for a class that has neither. -/
theorem importsSuffice_iff (o : Options) (hd : r.get? id = some d) :
    r.ImportsSuffice o id d ↔
      (∀ c ∈ d.constants, c.readonly = true → d.hasMarker .emitStaticReadonly = true →
        r.Imports id d (r.map false c.type)) ∧
      ((r.modelBase? id).isSome → ∀ p, d.Repeats p → r.Imports id d (r.mapProperty p)) := by
  constructor
  · intro h
    have hannotated : ∀ t, r.Annotates id d t → r.Imports id d t := fun t ht =>
      ⟨fun m hm => h.models m.2 (.annotated ht hm), fun hdate => h.moment (.annotated ht hdate)⟩
    refine ⟨fun c hc hreadonly hmarker => ?_, fun hbase p hp => ?_⟩
    · cases hexcluded : (r.map false c.type).isExcluded with
      | true => exact imports_of_isExcluded hexcluded
      | false => exact hannotated _ (.constant hc (by simp [Emits, hreadonly, hmarker, hexcluded]))
    · obtain ⟨ps, qs, hps, _⟩ := hp
      have hmem : p ∈ d.properties := hps ▸ List.mem_append_right _ (.head _)
      cases hexcluded : (r.mapProperty p).isExcluded with
      | true => exact imports_of_isExcluded hexcluded
      | false => exact hannotated _ (annotates_of_mem_properties hbase hmem hexcluded)
  · rintro ⟨hstatics, hrepeats⟩
    have hannotated : ∀ t, r.Annotates id d t → r.Imports id d t := fun t =>
      imports_of_annotates hd hstatics hrepeats
    constructor
    · intro name hname
      cases hname with
      | base hbase => exact .inr (mem_imports_view.2 (.inl ⟨_, hbase, rfl⟩))
      | annotated ht hm => exact (hannotated _ ht).1 _ hm
      | construction hp =>
        obtain ⟨q, hq, _, child, hm⟩ := exists_of_mem_constructions hp
        exact (imports_of_mem_all hd hq).1 _ hm
    · intro hmoment
      cases hmoment with
      | annotated ht hdate => exact (hannotated _ ht).2 hdate
      | revival hp => exact usesMoment_of_mem_dateProperties hp

/-- A class that is marked to emit its readonly statics, one of which is of the first type. -/
def pen : TypeDef where
  toDeclaration := ⟨"Shop", "", "Pen", .classType⟩
  toBody := { Body.empty with
    markers := .ofList [.emitStaticReadonly]
    constants := [⟨"Ink", .declared ⟨0⟩ [], "Color.Blue", true⟩] }

/-- An enumeration and a class with a readonly static of it. -/
def readonlyColor : Registry where
  types := [⟨⟨"Shop", "", "Color", .enumType⟩, .empty⟩, pen]
  nodup := by decide

theorem importsSuffice_iff_pen :
    readonlyColor.get? ⟨1⟩ = some pen ∧
      (readonlyColor.ImportsSuffice (.initial "in" "out") ⟨1⟩ pen ↔
        (∀ c ∈ pen.constants, c.readonly = true → pen.hasMarker .emitStaticReadonly = true →
          readonlyColor.Imports ⟨1⟩ pen (readonlyColor.map false c.type)) ∧
        ((readonlyColor.modelBase? ⟨1⟩).isSome →
          ∀ p, pen.Repeats p → readonlyColor.Imports ⟨1⟩ pen (readonlyColor.mapProperty p))) :=
  ⟨rfl, importsSuffice_iff _ rfl⟩

/-- `Pen` has a constant of type `Color` and imports nothing. -/
theorem not_importsSuffice_pen :
    ¬ readonlyColor.ImportsSuffice (.initial "in" "out") ⟨1⟩ pen := by
  intro h
  have hcolor : (readonlyColor.map false (.declared ⟨0⟩ [])).model? = some (⟨0⟩, "Color") := by
    decide
  have hemits : readonlyColor.Emits pen ⟨"Ink", .declared ⟨0⟩ [], "Color.Blue", true⟩ := by
    unfold Emits
    decide
  have himports : (readonlyColor.view ⟨1⟩ pen).imports = [] := by
    decide +kernel
  rcases h.models "Color" (.annotated (.constant (.head _) hemits) hcolor) with hself | himported
  · exact absurd hself (by decide)
  · simp [Angular.classContext, himports] at himported

end Registry

end ApiClient
