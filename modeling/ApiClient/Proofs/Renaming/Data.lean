import ApiClient.Proofs.References
import ApiClient.Service

/-!
# Renaming identities in data

The identity of a type is its place in the registry. `rename f` puts `f id` for each identity `id`
in what holds identities, and leaves everything else as it is.

* `TypeRef.rename`, `TypeDef.rename`: references and declared types.
* `Operation.rename`, `Controller.rename`: what a scan finds besides models.
* `MappedType.rename`, `ModelView.rename`, `Service.rename`: what code is generated from.

What is shown about a mapped type depends on its identity nowhere but in `MappedType.model?`.
-/

namespace ApiClient

variable (f : TypeId → TypeId)

/-! ## Metadata -/

mutual
/-- A reference with other identities. -/
def TypeRef.rename : TypeRef → TypeRef
  | .declared id args => .declared (f id) (TypeRef.renameAll args)
  | .external type args => .external type (TypeRef.renameAll args)
  | .array element => .array (TypeRef.rename element)
/-- References with other identities. -/
def TypeRef.renameAll : List TypeRef → List TypeRef
  | [] => []
  | t :: ts => TypeRef.rename t :: TypeRef.renameAll ts
end

/-- A property with other identities. -/
def PropertyDef.rename (p : PropertyDef) : PropertyDef :=
  { p with type := p.type.rename f }

/-- A static field with other identities. -/
def ConstantDef.rename (c : ConstantDef) : ConstantDef :=
  { c with type := c.type.rename f }

/-- A parameter of a method with other identities. -/
def ParameterDef.rename (p : ParameterDef) : ParameterDef :=
  { p with type := p.type.rename f }

/-- A method with other identities. -/
def MethodDef.rename (m : MethodDef) : MethodDef :=
  { m with
    parameters := m.parameters.map (ParameterDef.rename f)
    returns := m.returns.map (TypeRef.rename f) }

/-- Members with other identities. -/
def Body.rename (b : Body) : Body :=
  { b with
    base := b.base.map (TypeRef.rename f)
    properties := b.properties.map (PropertyDef.rename f)
    constants := b.constants.map (ConstantDef.rename f)
    methods := b.methods.map (MethodDef.rename f) }

/-- A declared type with other identities. -/
def TypeDef.rename (d : TypeDef) : TypeDef :=
  { d.toDeclaration, d.toBody.rename f with }

/-! ## Operations -/

/-- A parameter of an operation with other identities. -/
def Parameter.rename (p : Parameter) : Parameter :=
  { p with type := p.type.rename f }

/-- An operation with other identities. -/
def Operation.rename (o : Operation) : Operation :=
  { o with
    parameters := o.parameters.map (Parameter.rename f)
    returns := o.returns.map (TypeRef.rename f) }

/-- A controller with other identities. -/
def Controller.rename (c : Controller) : Controller :=
  { c with id := f c.id, operations := c.operations.map (Operation.rename f) }

/-! ## Views -/

/-- A mapped type with other identities. -/
def MappedType.rename : MappedType → MappedType
  | .array element => .array element.rename
  | .model id name => .model (f id) name
  | t => t

/-- A mapped property with other identities. -/
def MappedProperty.rename (p : MappedProperty) : MappedProperty :=
  { p with type := p.type.rename f }

/-- A view with other identities. -/
def ModelView.rename (v : ModelView) : ModelView :=
  { v with
    definition := v.definition.rename f
    base := v.base.map (TypeDef.rename f)
    declared := v.declared.map (MappedProperty.rename f)
    all := v.all.map (MappedProperty.rename f) }

/-- A method of a service with other identities. -/
def ServiceMethod.rename (m : ServiceMethod) : ServiceMethod :=
  { m with
    parameters := m.parameters.map fun p => (p.1, p.2.rename f)
    returns := m.returns.rename f }

/-- A group of a service with other identities. -/
def ServiceGroup.rename (g : ServiceGroup) : ServiceGroup :=
  { g with methods := g.methods.map (ServiceMethod.rename f) }

/-- A service with other identities. -/
def Service.rename (s : Service) : Service :=
  { s with groups := s.groups.map (ServiceGroup.rename f) }

variable {f}

/-! ## References -/

@[simp] theorem TypeRef.renameAll_eq_map (ts : List TypeRef) :
    TypeRef.renameAll f ts = ts.map (TypeRef.rename f) := by
  induction ts with
  | nil => rfl
  | cons t ts ih => rw [renameAll, ih, List.map_cons]

@[simp] theorem TypeRef.rename_declared (id : TypeId) (args : List TypeRef) :
    (TypeRef.declared id args).rename f = .declared (f id) (args.map (TypeRef.rename f)) := by
  rw [rename, renameAll_eq_map]

@[simp] theorem TypeRef.rename_external (type : ExternalType) (args : List TypeRef) :
    (TypeRef.external type args).rename f = .external type (args.map (TypeRef.rename f)) := by
  rw [rename, renameAll_eq_map]

@[simp] theorem TypeRef.rename_array (t : TypeRef) :
    (TypeRef.array t).rename f = .array (t.rename f) := by
  rw [rename]

@[simp] theorem TypeRef.declaredId?_rename (t : TypeRef) :
    (t.rename f).declaredId? = t.declaredId?.map f := by
  cases t <;> simp [declaredId?]

@[simp] theorem TypeRef.isVoid_rename (t : TypeRef) : (t.rename f).isVoid = t.isVoid := by
  cases t with
  | external type args => cases args <;> simp [isVoid]
  | declared | array => simp [isVoid]

/-! ## Mapped types -/

namespace MappedType

variable (t : MappedType)

@[simp] theorem display_rename : (t.rename f).display = t.display := by
  induction t with
  | array t ih => rw [rename, display, display, ih]
  | excluded | primitive | date | model | any => rfl

@[simp] theorem initializer_rename : (t.rename f).initializer = t.initializer := by
  cases t <;> rfl

@[simp] theorem element_rename : (t.rename f).element = t.element.rename f := by
  induction t with
  | array t ih => rw [rename, element, element, ih]
  | excluded | primitive | date | model | any => rfl

@[simp] theorem mentionsDate_rename : (t.rename f).mentionsDate = t.mentionsDate := by
  rw [mentionsDate, mentionsDate, element_rename]
  cases t.element <;> rfl

@[simp] theorem isExcluded_rename : (t.rename f).isExcluded = t.isExcluded := by
  cases t <;> rfl

@[simp] theorem isScalar_rename : (t.rename f).isScalar = t.isScalar := by
  cases t <;> rfl

@[simp] theorem isArray_rename : (t.rename f).isArray = t.isArray := by
  cases t <;> rfl

@[simp] theorem model?_rename : (t.rename f).model? = t.model?.map fun m => (f m.1, m.2) := by
  rw [model?, model?, element_rename]
  cases t.element <;> rfl

@[simp] theorem arrayOf_rename : (t.rename f).arrayOf = t.arrayOf.rename f := by
  cases t <;> rfl

@[simp] theorem rename_eq_date (utc : Bool) : t.rename f = .date utc ↔ t = .date utc := by
  cases t <;> simp [rename]

end MappedType

end ApiClient
