import ApiClient.Proofs.DeclaredMembers

/-!
# Revived fields

Responses hold dates as texts and models as plain objects. The constructor of a class, or the
function of an interface, revives the fields: it makes dates and instances of models of them. The
statements come in four groups, each filtered from the properties by a test of its own: dates, dates
in universal time, models, and arrays of models. An array of arrays is left as it comes.

Results:
* `filterMap_append_perm`: two groups that have no property in common are one group.
* `Registry.revival?`: how a value of a type would be revived through any number of arrays.
* `ModelView.RevivesBy`: in both dialects there is one statement for each property that is to be
  revived, and no other statement.
* `groups_perm`: the four groups together are one, that of dates, models and arrays of models.
* `revives_view`: the fields of a class that are flat are revived, each by one statement, which
  stands in the file, and arrays of arrays are not.
* `not_revivesBy_board`: so not all fields that hold models are revived.
-/

namespace ApiClient

open Text

/-! ## Specification -/

/-- How a value is revived: as a date, as an instance of a model, or item by item. -/
inductive Revival where
  | date (utc : Bool)
  | model (name : String)
  | items (each : Revival)
  deriving DecidableEq, Repr

/-- The expression for the revived value of an expression. -/
def Revival.expression (dialect : Dialect) : Revival → String → String
  | .date false, x => "moment(" ++ x ++ ")"
  | .date true, x => "moment.utc(" ++ x ++ ")"
  | .model name, x =>
    match dialect with
    | .angular => "new " ++ name ++ "(" ++ x ++ ")"
    | .react => name ++ "_fromJsonObj(" ++ x ++ ")"
  | .items each, x =>
    match dialect with
    | .angular => x ++ ".map(x => " ++ each.expression .angular "x" ++ ")"
    | .react => x ++ ".map((x: any) => " ++ each.expression .react "x" ++ ")"

/-- The statement that revives a field. -/
def Revival.statement (dialect : Dialect) (x : Revival) (field : String) : String :=
  match dialect with
  | .angular => Angular.hydration field (x.expression .angular ("fields." ++ field))
  | .react => React.segment field (x.expression .react ("obj." ++ field))

/-- How a value of a type is revived, through any number of arrays: dates, and models that can be
instantiated. -/
def Registry.revival? (r : Registry) : MappedType → Option Revival
  | .date utc => some (.date utc)
  | .model id name => if r.isConstructible id then some (.model name) else none
  | .array element => (r.revival? element).map .items
  | _ => none

namespace MappedType

/-- The type is no array of arrays. -/
def isFlat : MappedType → Bool
  | .array element => !element.isArray
  | _ => true

end MappedType

namespace ModelView

/-- The statements that revive the fields of a view. -/
def statements (v : ModelView) : Dialect → List String
  | .angular => Angular.hydrations v
  | .react => React.segments v

/-- The statements are those of the properties that are revived so: one for each of them, in some
order, and none besides. -/
def RevivesBy (v : ModelView) (revive : MappedProperty → Option Revival) : Prop :=
  ∀ dialect, (v.statements dialect).Perm
    (v.all.filterMap fun p => (revive p).map fun x => x.statement dialect p.name)

end ModelView

/-! ## Groups of statements -/

/-- Two groups that have no element in common are one group. -/
theorem filterMap_append_perm {α β : Type} {f g : α → Option β} {as : List α}
    (h : ∀ a ∈ as, f a = none ∨ g a = none) :
    (as.filterMap f ++ as.filterMap g).Perm (as.filterMap fun a => (f a).or (g a)) := by
  induction as with
  | nil => exact .nil
  | cons a as ih =>
    have hrest := ih fun b hb => h b (.tail _ hb)
    cases hf : f a with
    | none =>
      cases hg : g a with
      | none => simpa [hf, hg] using hrest
      | some b => simpa [hf, hg] using List.perm_middle.trans (hrest.cons b)
    | some b =>
      have hg : g a = none := (h a (.head _)).resolve_left (by simp [hf])
      simpa [hf, hg] using hrest.cons b

namespace Registry

variable {r : Registry} {id : TypeId} {d : TypeDef}

/-- The revival of dates, models and arrays of models. -/
def flatRevival? (r : Registry) : MappedType → Option Revival
  | .date utc => some (.date utc)
  | .model id name => if r.isConstructible id then some (.model name) else none
  | .array (.model id name) =>
    if r.isConstructible id then some (.items (.model name)) else none
  | _ => none

theorem flatRevival?_eq {t : MappedType} (h : t.isDateArray = false) :
    r.flatRevival? t = if t.isFlat then r.revival? t else none := by
  cases t with
  | array element =>
    cases element with
    | date utc => simp [MappedType.isDateArray, MappedType.isArray, MappedType.mentionsDate,
        MappedType.element] at h
    | model id name =>
      simp only [flatRevival?, MappedType.isFlat, MappedType.isArray, Bool.not_false, if_true,
        revival?]
      split <;> rfl
    | excluded | primitive | array | any => rfl
  | excluded | primitive | date | model | any => rfl

/-- The four groups, whatever their statements are. -/
theorem groups_perm (statement : String → Revival → String) (r : Registry) (id : TypeId)
    (d : TypeDef) :
    ((((r.view id d).dateProperties false).map fun p => statement p (.date false)) ++
      (((r.view id d).dateProperties true).map fun p => statement p (.date true)) ++
      ((r.view id d).modelProperties.map fun p => statement p.1 (.model p.2)) ++
      ((r.view id d).modelArrayProperties.map fun p => statement p.1 (.items (.model p.2)))).Perm
    ((r.view id d).all.filterMap fun p => (r.flatRevival? p.type).map (statement p.name)) := by
  simp only [ModelView.dateProperties, ModelView.modelProperties, ModelView.modelArrayProperties,
    List.map_filterMap]
  refine .trans (((filterMap_append_perm ?_).append_right _).append_right _) ?_
  · intro p _
    cases p.type <;> simp
  refine .trans ((filterMap_append_perm ?_).append_right _) ?_
  · intro p _
    cases p.type <;> simp
  refine .trans (filterMap_append_perm ?_) (.of_eq (List.filterMap_congr ?_))
  · intro p _
    cases p.type <;> simp
  · intro p hp
    have hflag := constructible_of_mem_view_all hp
    cases htype : p.type with
    | date utc => cases utc <;> simp [flatRevival?]
    | model child name =>
      rw [htype] at hflag
      simp [flatRevival?, hflag, MappedType.model?, MappedType.element]
    | array element =>
      rw [htype] at hflag
      cases element with
      | model child name => simp [flatRevival?, hflag, MappedType.model?, MappedType.element]
      | excluded | primitive | date | array | any => rfl
    | excluded | primitive | any => rfl

end Registry

/-! ## Statements of the dialects -/

theorem Angular.hydration_eq {x : Revival} {field value : String}
    (h : value.toList = (x.expression .angular ("fields." ++ field)).toList) :
    hydration field value = x.statement .angular field :=
  congrArg (hydration field) (String.toList_inj.1 h)

theorem Angular.hydrations_eq (v : ModelView) : hydrations v =
    (v.modelProperties.map fun p => (Revival.model p.2).statement .angular p.1) ++
      ((v.dateProperties false).map fun p => (Revival.date false).statement .angular p) ++
      ((v.dateProperties true).map fun p => (Revival.date true).statement .angular p) ++
      (v.modelArrayProperties.map fun p =>
        (Revival.items (.model p.2)).statement .angular p.1) := by
  have hmodel : ∀ p m, hydration p ("new " ++ m ++ "(fields." ++ p ++ ")") =
      (Revival.model m).statement .angular p :=
    fun p m => hydration_eq (by simp [Revival.expression])
  have hdate : ∀ p, hydration p ("moment(fields." ++ p ++ ")") =
      (Revival.date false).statement .angular p :=
    fun p => hydration_eq (by simp [Revival.expression])
  have hutc : ∀ p, hydration p ("moment.utc(fields." ++ p ++ ")") =
      (Revival.date true).statement .angular p :=
    fun p => hydration_eq (by simp [Revival.expression])
  have hitems : ∀ p m, hydration p ("fields." ++ p ++ ".map(x => new " ++ m ++ "(x))") =
      (Revival.items (.model m)).statement .angular p :=
    fun p m => hydration_eq (by simp [Revival.expression])
  simp only [hydrations, hmodel, hdate, hutc, hitems]

theorem React.segment_eq {x : Revival} {property value : String}
    (h : value.toList = (x.expression .react ("obj." ++ property)).toList) :
    segment property value = x.statement .react property :=
  congrArg (segment property) (String.toList_inj.1 h)

theorem React.segments_eq (v : ModelView) : segments v =
    ((v.dateProperties false).map fun p => (Revival.date false).statement .react p) ++
      ((v.dateProperties true).map fun p => (Revival.date true).statement .react p) ++
      (v.modelProperties.map fun p => (Revival.model p.2).statement .react p.1) ++
      (v.modelArrayProperties.map fun p =>
        (Revival.items (.model p.2)).statement .react p.1) := by
  have hmodel : ∀ p m, segment p (m ++ "_fromJsonObj(obj." ++ p ++ ")") =
      (Revival.model m).statement .react p :=
    fun p m => segment_eq (by simp [Revival.expression])
  have hdate : ∀ p, segment p ("moment(obj." ++ p ++ ")") =
      (Revival.date false).statement .react p :=
    fun p => segment_eq (by simp [Revival.expression])
  have hutc : ∀ p, segment p ("moment.utc(obj." ++ p ++ ")") =
      (Revival.date true).statement .react p :=
    fun p => segment_eq (by simp [Revival.expression])
  have hitems : ∀ p m, segment p ("obj." ++ p ++ ".map((x: any) => " ++ m ++ "_fromJsonObj(x))") =
      (Revival.items (.model m)).statement .react p :=
    fun p m => segment_eq (by simp [Revival.expression])
  simp only [segments, hmodel, hdate, hutc, hitems]

namespace ModelView

variable {v : ModelView} {o : Options} {content text : String}

/-- The statements stand in the file of a class that can be instantiated. -/
theorem isWithin_of_mem_statements (hd : v.definition.isConstructible = true)
    (h : v.render o = .ok content) (htext : text ∈ v.statements o.dialect) :
    IsWithin text content := by
  cases ho : o.dialect with
  | angular =>
    rw [ho] at htext
    have habstract := (TypeDef.isConstructible_iff.1 hd).2
    exact Angular.isWithin_of_mem_hydrations ho habstract h htext
  | react =>
    rw [ho] at htext
    exact React.isWithin_of_mem_segments ho hd h htext

end ModelView

/-! ## Fields of classes -/

namespace Registry

/-- In both dialects the statements of a class are those of its dates, models and arrays of
models. -/
theorem revivesBy_view (r : Registry) (id : TypeId) (d : TypeDef) :
    (r.view id d).RevivesBy fun p => r.flatRevival? p.type := by
  intro dialect
  refine .trans ?_ (groups_perm (fun field x => x.statement dialect field) r id d)
  cases dialect with
  | angular =>
    refine .trans (.of_eq (Angular.hydrations_eq _)) (List.Perm.append_right _ ?_)
    rw [List.append_assoc]
    exact List.perm_append_comm
  | react => exact .of_eq (React.segments_eq _)

/-- Of a class that can be instantiated, in both dialects each property is revived by exactly one
statement if its type is flat and is revived at all, and by none otherwise, arrays of dates left
aside; no two properties have one name, and the statements stand in the file of the class. -/
theorem revives_view (r : Registry) (id : TypeId) {d : TypeDef} (hd : d.isConstructible = true) :
    ((r.view id d).all.map MappedProperty.name).Nodup ∧
    (∃ revive, (r.view id d).RevivesBy revive ∧
      ∀ p ∈ (r.view id d).all, p.type.isDateArray = false →
        revive p = if p.type.isFlat then r.revival? p.type else none) ∧
    ∀ o content, (r.view id d).render o = .ok content →
      ∀ text ∈ (r.view id d).statements o.dialect, IsWithin text content := by
  refine ⟨r.nodup_names_view id d, ⟨_, r.revivesBy_view id d, fun p _ h => flatRevival?_eq h⟩, ?_⟩
  intro o content h text htext
  exact ModelView.isWithin_of_mem_statements hd h htext

/-- A class with fields of all kinds: dates, models, arrays of them and an array of arrays. -/
def shipment : TypeDef where
  toDeclaration := ⟨"Shop", "", "Shipment", .classType⟩
  toBody := { Body.empty with
    properties := [⟨"Count", .external "int" [], .empty, none⟩,
      ⟨"Crate", .declared ⟨0⟩ [], .empty, none⟩,
      ⟨"Crates", .external "List" [.declared ⟨0⟩ []], .empty, none⟩,
      ⟨"Due", .external "DateTime" [], .empty, none⟩,
      ⟨"Rows", .array (.array (.declared ⟨0⟩ [])), .empty, none⟩,
      ⟨"Sent", .external "DateTime" [], .ofList [.utcDate], none⟩] }

/-- The class and the class of its models. -/
def shipments : Registry where
  types := [⟨⟨"Shop", "", "Crate", .classType⟩, .empty⟩, shipment]
  nodup := by decide

/-- Four of the six fields are revived. -/
theorem revives_view_shipment :
    shipment.isConstructible = true ∧
    (∃ revive, (shipments.view ⟨1⟩ shipment).RevivesBy revive ∧
      ∀ p ∈ (shipments.view ⟨1⟩ shipment).all, p.type.isDateArray = false →
        revive p = if p.type.isFlat then shipments.revival? p.type else none) ∧
    ((shipments.view ⟨1⟩ shipment).all.map fun p =>
        (p.name, if p.type.isFlat then shipments.revival? p.type else none)) =
      [("Count", none), ("Crate", some (.model "Crate")),
        ("Crates", some (.items (.model "Crate"))), ("Due", some (.date false)), ("Rows", none),
        ("Sent", some (.date true))] := by
  have hsorted : (shipments.view ⟨1⟩ shipment).all =
      (shipments.allProperties ⟨1⟩).filterMap shipments.mappedProperty? :=
    List.mergeSort_of_pairwise (by decide +kernel)
  refine ⟨rfl, (revives_view shipments ⟨1⟩ rfl).2.1, ?_⟩
  rw [hsorted]
  decide +kernel

/-- A class with an array of dates and an array of arrays of models. -/
def board : TypeDef where
  toDeclaration := ⟨"Shop", "", "Board", .classType⟩
  toBody := { Body.empty with
    properties := [⟨"Days", .array (.external "DateTime" []), .empty, none⟩,
      ⟨"Rows", .array (.array (.declared ⟨0⟩ [])), .empty, none⟩] }

/-- The class and the class of its models. -/
def boards : Registry where
  types := [⟨⟨"Shop", "", "Cell", .classType⟩, .empty⟩, board]
  nodup := by decide

/-- Neither the days nor the cells of the rows are revived. -/
theorem not_revivesBy_board :
    boards.isModel ⟨1⟩ = true ∧ board.isConstructible = true ∧
      ¬ (boards.view ⟨1⟩ board).RevivesBy fun p => boards.revival? p.type := by
  refine ⟨by decide +kernel, rfl, fun h => ?_⟩
  have hsorted : (boards.view ⟨1⟩ board).all =
      (boards.allProperties ⟨1⟩).filterMap boards.mappedProperty? :=
    List.mergeSort_of_pairwise (by decide +kernel)
  have hlength := ((boards.revivesBy_view ⟨1⟩ board .angular).symm.trans (h .angular)).length_eq
  rw [hsorted] at hlength
  revert hlength
  decide +kernel

end Registry

end ApiClient
