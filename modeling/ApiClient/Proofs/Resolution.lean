import ApiClient.Proofs.Lookup
import ApiClient.Proofs.TypeExpr.Printing

/-!
# Resolving and printing

Resolving looks up every name of an expression from one module, where several modules may declare
the same name. A reference is printed with the qualified names of its declared types, so it is
printed like the expression that it was resolved from.

Results:
* `SameNames.resolve`: an expression resolves to the same reference if names and modules are the
  same.
* `display_array`, `display_declared`, `display_external`: the printed form of a reference, by the
  printed forms of its parts.
* `display_eq_display_express`: a reference is printed like a type expression.
* `display_resolve`: what an expression resolves to is printed like the expression, and the printed
  text resolves to it again.
-/

namespace ApiClient

/-! ## Printed expressions -/

namespace TypeExpr

@[simp] theorem toList_display (e : TypeExpr) : e.display.toList = e.chars :=
  String.toList_ofList

theorem toList_intercalate_display (a : TypeExpr) (as : List TypeExpr) :
    (", ".intercalate ((a :: as).map display)).toList = a.chars ++ argumentChars as := by
  induction as generalizing a with
  | nil => simp [argumentChars]
  | cons b bs ih =>
    have hrest := ih b
    rw [String.toList_intercalate] at hrest ⊢
    simp only [List.map_cons, List.intercalate_cons_cons] at hrest ⊢
    rw [hrest, argumentChars]
    simp

theorem display_named (name : String) (args : List TypeExpr) :
    (named name args).display = Registry.withArgs name (args.map display) := by
  refine String.toList_injective ?_
  cases args with
  | nil => simp [Registry.withArgs, chars]
  | cons a as =>
    have hargs := toList_intercalate_display a as
    rw [List.map_cons] at hargs
    simp [Registry.withArgs, chars, hargs]

theorem display_array (e : TypeExpr) : (array e).display = e.display ++ "[]" := by
  refine String.toList_injective ?_
  simp [chars]

end TypeExpr

namespace Registry

variable (r : Registry)

/-! ## Printed references -/

theorem display_array (t : TypeRef) : r.display (.array t) = r.display t ++ "[]" := by
  rw [display]

theorem display_declared (id : TypeId) (args : List TypeRef) :
    r.display (.declared id args) = withArgs (r.qualifiedName id) (args.map r.display) := by
  rw [display, displayAll_eq_map]

theorem display_external (type : ExternalType) (args : List TypeRef) :
    r.display (.external type args) = withArgs type.name (args.map r.display) := by
  rw [display, displayAll_eq_map]

mutual
/-- A reference as a type expression. -/
def express (r : Registry) : TypeRef → TypeExpr
  | .array element => .array (r.express element)
  | .declared id args => .named (r.qualifiedName id) (r.expressAll args)
  | .external type args => .named type.name (r.expressAll args)
/-- References as type expressions. -/
def expressAll (r : Registry) : List TypeRef → List TypeExpr
  | [] => []
  | t :: ts => r.express t :: r.expressAll ts
end

@[simp] theorem expressAll_eq_map (ts : List TypeRef) : r.expressAll ts = ts.map r.express := by
  induction ts with
  | nil => rfl
  | cons t ts ih => rw [expressAll, ih, List.map_cons]

/-- A reference is printed like the expression with the qualified names of its declared types. -/
theorem display_eq_display_express (t : TypeRef) : r.display t = (r.express t).display := by
  have hargs : ∀ args : List TypeRef, (∀ t ∈ args, r.display t = (r.express t).display) →
      (args.map r.express).map TypeExpr.display = args.map r.display := by
    intro args hargs
    rw [List.map_map]
    exact (List.map_congr_left hargs).symm
  induction t using TypeRef.induction with
  | declared id args ih =>
    rw [display_declared, express, expressAll_eq_map, TypeExpr.display_named, hargs args ih]
  | external type args ih =>
    rw [display_external, express, expressAll_eq_map, TypeExpr.display_named, hargs args ih]
  | array t ih => rw [display_array, express, TypeExpr.display_array, ih]

/-! ## Resolved expressions -/

/-- A name that is found stands for the declared type, any other one for a library type. -/
theorem resolve_named (module name : String) (args : List TypeExpr) :
    r.resolve module (.named name args) =
      match r.lookup name module with
      | some id => .declared id (args.map (r.resolve module))
      | none => .external name (args.map (r.resolve module)) := by
  cases hlookup : r.lookup name module <;> simp only [resolve, hlookup, resolveAll_eq_map]

theorem resolve_array (module : String) (e : TypeExpr) :
    r.resolve module (.array e) = .array (r.resolve module e) := by
  rw [resolve]

variable {r}

theorem SameNames.resolve {r' : Registry} (h : r.SameNames r') (module : String) (e : TypeExpr) :
    r.resolve module e = r'.resolve module e := by
  induction e using TypeExpr.induction with
  | named name args ih =>
    rw [resolve_named, resolve_named, h.lookup, List.map_congr_left ih]
  | array e ih => rw [resolve_array, resolve_array, ih]

theorem qualifiedName_of_lookup {qualified module : String} {id : TypeId}
    (h : r.lookup qualified module = some id) : r.qualifiedName id = qualified := by
  obtain ⟨d, hd, hname, _⟩ := prevails_of_lookup h
  rw [qualifiedName, hd]
  exact hname

variable (r)

theorem display_eq_of_resolve (module : String) (e : TypeExpr) :
    r.display (r.resolve module e) = e.display := by
  induction e using TypeExpr.induction with
  | named name args ih =>
    have hargs : (args.map (r.resolve module)).map r.display = args.map TypeExpr.display := by
      rw [List.map_map]
      exact List.map_congr_left ih
    rw [resolve_named, TypeExpr.display_named]
    cases hlookup : r.lookup name module with
    | none => rw [display_external, ExternalType.name_ofName, hargs]
    | some id => rw [display_declared, hargs, qualifiedName_of_lookup hlookup]
  | array e ih => rw [resolve_array, display_array, ih, TypeExpr.display_array]

/-- What an expression resolves to is printed like the expression. If the expression was read from
a text, what is printed can be read as well, and resolves to the same reference. -/
theorem display_resolve (module : String) (e : TypeExpr) :
    r.display (r.resolve module e) = e.display ∧
      ∀ s, TypeExpr.parse s = .ok e →
        (TypeExpr.parse (r.display (r.resolve module e))).map (r.resolve module) =
          .ok (r.resolve module e) := by
  refine ⟨r.display_eq_of_resolve module e, fun s hs => ?_⟩
  have hread := TypeExpr.parse_display (TypeExpr.wellNamed_of_parse hs)
  rw [r.display_eq_of_resolve, hread]
  rfl

/-- Two modules that declare a type of the same name. -/
def maps : Registry where
  types := ["Depot", "Shop"].map fun module =>
    { (⟨module, "", "Map", .classType⟩ : Declaration), Body.empty with }
  nodup := by decide

theorem display_resolve_maps :
    let e := TypeExpr.optionalMap.meaning
    let t := .external TypeExpr.nullableName
      [.declared ⟨1⟩ [.external "string" [], .array (.external "bool" [])]]
    TypeExpr.parse "Map<string,bool[]>?" = .ok e ∧ maps.resolve "Shop" e = t ∧
      maps.display t = "System.Nullable<Map<string, bool[]>>" ∧
      (TypeExpr.parse (maps.display t)).map (maps.resolve "Shop") = .ok t := by
  intro e t
  have hread : TypeExpr.parse "Map<string,bool[]>?" = .ok e :=
    TypeExpr.parseChars_of_derives TypeExpr.derives_optionalMap
  have hresolve : maps.resolve "Shop" e = t := rfl
  have hprinted : e.display = "System.Nullable<Map<string, bool[]>>" := by decide
  obtain ⟨hdisplay, hagain⟩ := maps.display_resolve "Shop" e
  have hback := hagain _ hread
  rw [hresolve] at hdisplay hback
  exact ⟨hread, hresolve, hdisplay.trans hprinted, hback⟩

end Registry

end ApiClient
