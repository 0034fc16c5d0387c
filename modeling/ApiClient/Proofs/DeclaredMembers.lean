import ApiClient.Proofs.Revivals
import ApiClient.Proofs.Views

/-!
# Members of generated types

The view of a class lists all its properties and those that the generated type declares, both by
name. A name that a type repeats is dropped where the properties of the base chain are put together,
so a class that declares what it inherits declares no member twice. A class whose base is a model
declares its own properties as they are written, repeated names and all.

Results:
* `pairwise_lt_mappedProperties_iff`: a list of mapped properties is strictly increasing exactly if
  no name is repeated among those that are not excluded.
* `ModelView.ListsOnce`: both lists of a view are strictly increasing by name.
* `listsOnce_iff`: this holds exactly if the base is no model or no own property repeats a name;
  `declaresMembers_of_render` tells that the file declares one member for each property listed.
* `not_listsOnce_widget`: some class declares a member twice.
-/

namespace ApiClient

open Text

/-! ## Specification -/

/-- Both lists of a view are strictly increasing by name: they are sorted and no name comes twice. -/
structure ModelView.ListsOnce (v : ModelView) : Prop where
  all : v.all.Pairwise fun p q => p.name < q.name
  declared : v.declared.Pairwise fun p q => p.name < q.name

/-- How the declaration of a member begins. -/
def Dialect.memberHead (dialect : Dialect) (name : String) : String :=
  match dialect with
  | .angular => "\tpublic " ++ name ++ ": "
  | .react => "\t" ++ name ++ ": "

/-- The file declares a member for each property that the view lists, in their order. -/
def ModelView.DeclaresMembers (v : ModelView) (dialect : Dialect) (content : String) : Prop :=
  ∃ before texts after, content = before ++ String.join texts ++ after ∧
    List.Forall₂ (fun p text => ∃ rest, text = dialect.memberHead p.name ++ rest) v.declared texts

/-- Of two properties that are not excluded, the later one has the name of the earlier one. -/
def Registry.RepeatsMember (r : Registry) (ps : List PropertyDef) : Prop :=
  ∃ p q, [p, q].Sublist ps ∧ p.name = q.name ∧ r.mapProperty p ≠ .excluded ∧
    r.mapProperty q ≠ .excluded

/-! ## Lists of properties -/

namespace Registry

variable {r : Registry} {ps : List PropertyDef}

theorem isSome_mappedProperty? {p : PropertyDef} :
    (∃ q, r.mappedProperty? p = some q) ↔ r.mapProperty p ≠ .excluded := by
  unfold mappedProperty?
  cases r.mapProperty p <;> simp [MappedType.isExcluded]

/-- The names that are left after mapping are those of the properties that are not excluded. -/
theorem nodup_filterMap_mappedProperty?_iff :
    ((ps.filterMap r.mappedProperty?).map MappedProperty.name).Nodup ↔ ¬ r.RepeatsMember ps := by
  rw [List.Nodup, List.pairwise_map, List.pairwise_filterMap, List.pairwise_iff_forall_sublist]
  constructor
  · rintro h ⟨p, q, hsub, hname, hp, hq⟩
    obtain ⟨p', hp'⟩ := isSome_mappedProperty?.2 hp
    obtain ⟨q', hq'⟩ := isSome_mappedProperty?.2 hq
    refine h hsub p' hp' q' hq' ?_
    rw [(mappedProperty?_eq_some.1 hp').2.1, (mappedProperty?_eq_some.1 hq').2.1, hname]
  · intro h p q hsub p' hp' q' hq' hname
    refine h ⟨p, q, hsub, ?_, isSome_mappedProperty?.1 ⟨p', hp'⟩, isSome_mappedProperty?.1 ⟨q', hq'⟩⟩
    rwa [(mappedProperty?_eq_some.1 hp').2.1, (mappedProperty?_eq_some.1 hq').2.1] at hname

theorem pairwise_lt_mappedProperties_iff :
    ((r.mappedProperties ps).Pairwise fun p q => p.name < q.name) ↔ ¬ r.RepeatsMember ps := by
  rw [mappedProperties, sortByText_pairwise_lt_iff, nodup_filterMap_mappedProperty?_iff]

/-- Along a base chain a name is kept once, with its nearest declaration. -/
theorem not_repeatsMember_allProperties (r : Registry) (id : TypeId) :
    ¬ r.RepeatsMember (r.allProperties id) := by
  rintro ⟨p, q, hsub, hname, _, _⟩
  have hnames : ((r.allProperties id).map PropertyDef.name).Nodup := map_distinctBy_nodup _ _ _
  exact List.pairwise_iff_forall_sublist.1 (List.pairwise_map.1 hnames) hsub hname

theorem pairwise_lt_view_all (r : Registry) (id : TypeId) (d : TypeDef) :
    (r.view id d).all.Pairwise fun p q => p.name < q.name :=
  pairwise_lt_mappedProperties_iff.2 (r.not_repeatsMember_allProperties id)

/-- In a view of a class no name comes twice. -/
theorem nodup_names_view (r : Registry) (id : TypeId) (d : TypeDef) :
    ((r.view id d).all.map MappedProperty.name).Nodup :=
  ((sortByText_perm _ _).map _).nodup_iff.2
    (nodup_filterMap_mappedProperty?_iff.2 (r.not_repeatsMember_allProperties id))

theorem pairwise_lt_view_declared_iff {id : TypeId} {d : TypeDef} :
    ((r.view id d).declared.Pairwise fun p q => p.name < q.name) ↔
      ((r.modelBase? id).isSome → ¬ r.RepeatsMember d.properties) := by
  change (if (r.view id d).base.isSome then r.mappedProperties d.properties
    else (r.view id d).all).Pairwise _ ↔ _
  rw [view_base_isSome]
  by_cases hbase : (r.modelBase? id).isSome = true
  · rw [if_pos hbase, pairwise_lt_mappedProperties_iff, forall_prop_of_true hbase]
  · rw [if_neg hbase]
    exact ⟨fun _ h => absurd h hbase, fun _ => r.pairwise_lt_view_all id d⟩

end Registry

/-! ## Files -/

namespace ModelView

open Template

variable {v : ModelView} {o : Options} {content : String}

/-- The file of a class or interface declares the members that its view lists, and each in a text
of its own. -/
theorem declaresMembers_of_render (h : v.render o = .ok content) :
    v.DeclaresMembers o.dialect content := by
  unfold DeclaresMembers
  cases ho : o.dialect with
  | angular =>
    have hmem : forEach "properties" [
        .text "\tpublic ", key "name", .text ": ", key "type_name",
        given "initializer" [.text " = ", key "initializer"], line ";"] ∈ angularClass := by
      simp [angularClass]
    obtain ⟨before, texts, after, hcontent, htexts⟩ := exists_eq_join_of_named
      Angular.FieldContext.name hmem rfl (fun _ => rfl) ((Angular.render_eq_ok ho).1 h)
    exact ⟨before, texts, after, hcontent, List.forall₂_map_left_iff.1 htexts⟩
  | react =>
    have hmem : forEach "properties" [
        .text "\t", key "name", .text ": ", key "type_name", line ";"] ∈ reactInterface := by
      simp [reactInterface]
    obtain ⟨before, texts, after, hcontent, htexts⟩ := exists_eq_join_of_named
      React.MemberContext.name hmem rfl (fun _ => rfl) ((React.render_eq_ok ho).1 h)
    exact ⟨before, texts, after, hcontent, List.forall₂_map_left_iff.1 htexts⟩

end ModelView

/-! ## Views of classes -/

namespace Registry

/-- The list of all properties is strictly increasing by name, and the file declares a member for
each property of the other list, which is strictly increasing exactly if the base is no model or no
own property has the name of an earlier one. -/
theorem listsOnce_iff (r : Registry) (id : TypeId) (d : TypeDef) :
    ((r.view id d).all.Pairwise fun p q => p.name < q.name) ∧
    (∀ o content, (r.view id d).render o = .ok content →
      (r.view id d).DeclaresMembers o.dialect content) ∧
    ((r.view id d).ListsOnce ↔ ((r.modelBase? id).isSome → ¬ r.RepeatsMember d.properties)) := by
  have hall := r.pairwise_lt_view_all id d
  refine ⟨hall, fun o content => ModelView.declaresMembers_of_render, ?_⟩
  rw [← pairwise_lt_view_declared_iff]
  exact ⟨fun h => h.declared, fun h => ⟨hall, h⟩⟩

/-- A class with a base that has two properties of one name. -/
def twofoldWidget : TypeDef where
  toDeclaration := ⟨"Shop", "", "Widget", .classType⟩
  toBody := { Body.empty with
    base := some (.declared ⟨0⟩ [])
    properties := [⟨"Part", .external "int" [], .empty, none⟩,
      ⟨"Part", .external "string" [], .empty, none⟩] }

/-- The class and its base. -/
def twofold : Registry where
  types := [⟨⟨"Shop", "", "Entity", .classType⟩, .empty⟩, twofoldWidget]
  nodup := by decide

/-- `Widget` declares the member `Part` twice. -/
theorem not_listsOnce_widget : ¬ (twofold.view ⟨1⟩ twofoldWidget).ListsOnce := by
  intro h
  have hbase : (twofold.modelBase? ⟨1⟩).isSome = true := by decide +kernel
  refine pairwise_lt_view_declared_iff.1 h.declared hbase ⟨_, _, List.Sublist.refl _, rfl, ?_, ?_⟩ <;>
    decide +kernel

end Registry

end ApiClient
