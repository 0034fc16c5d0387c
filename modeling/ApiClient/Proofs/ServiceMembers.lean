import ApiClient.Proofs.Renaming.Scan
import ApiClient.Proofs.Revivals
import ApiClient.Proofs.ServiceMethods
import Mathlib.Data.List.Nodup

/-!
# Members of the class of a service

The class of a service has a member for each group. It is named after the class of the controller,
less the ending `Controller` and with a small first letter; the namespace and the module of that
class are left out, and nothing looks at what the other members are called.

Results:
* `TakesMember`: the member that the name of a class stands for; `takesMember_iff` finds it.
* `Registry.KeepsMembers`: no member is declared twice, and each group is what its member holds.
* `keepsMembers_iff`: this holds exactly if no two controllers take one member, and none takes a
  member that the class has anyway.
* `not_keepsMembers_widgets`: some class has a member twice.
* `declaresMembers_render`: the file of a service declares a member for each group, in their order,
  besides the ones that it always has.
-/

namespace ApiClient

open Text

/-! ## Specification -/

/-- The members that the class of a service has in a dialect, whatever its groups are. -/
def Dialect.ownMembers : Dialect → List String
  | .angular => ["constructor", "http", "apiRelativePath", "handleError"]
  | .react => ["constructor", "http", "apiRelativePath"]

/-- How the class declares them; its constructor declares `http` as well. -/
def Dialect.ownDeclarations : Dialect → List String
  | .angular => ["\tconstructor(private http: ", "\tapiRelativePath: string = '",
      "\tprivate handleError(error: "]
  | .react => ["\tconstructor(private http: ", "\tapiRelativePath: string = '"]

namespace Service

/-- The members of the class of a service. -/
def members (s : Service) (dialect : Dialect) : List String :=
  dialect.ownMembers ++ s.groups.map ServiceGroup.name

/-- What the member of a name holds after all groups have been assigned in order. -/
def member? (s : Service) (name : String) : Option ServiceGroup :=
  s.groups.reverse.find? fun g => g.name = name

/-- The file declares a member for each group, in their order, and the members that it always
has. -/
structure DeclaresMembers (s : Service) (dialect : Dialect) (content : String) : Prop where
  groups : ∃ before texts after, content = before ++ String.join texts ++ after ∧
    List.Forall₂ (fun g text => ∃ rest, text = "\t" ++ g.name ++ " = \x7b" ++ rest) s.groups texts
  own : ∀ text ∈ dialect.ownDeclarations, IsWithin text content

end Service

/-- The stem of a name: what stands before the ending `Controller`, or else the whole name. -/
inductive HasStem (name : String) : List Char → Prop
  | ending {stem : List Char} (hstem : stem ≠ []) (h : name.toList = stem ++ "Controller".toList) :
      HasStem name stem
  | whole (h : ∀ stem, name.toList = stem ++ "Controller".toList → stem = []) :
      HasStem name name.toList

/-- The member is the stem of the name with a small first letter. -/
def TakesMember (name member : String) : Prop :=
  HasStem name [] ∧ member = "" ∨
    ∃ c rest, HasStem name (c :: rest) ∧ member.toList = lowerChar c ++ rest

/-- No member of the class of the service is declared twice, and each group is what its member
holds. -/
structure Registry.KeepsMembers (r : Registry) (bases : List String) (dialect : Dialect) :
    Prop where
  distinct : ((r.service (r.controllers bases)).members dialect).Nodup
  kept : ∀ g ∈ (r.service (r.controllers bases)).groups,
    (r.service (r.controllers bases)).member? g.name = some g

/-! ## Names of members -/

theorem hasStem_iff {name : String} {stem : List Char} :
    HasStem name stem ↔ stem = (groupName name).toList := by
  unfold groupName
  cases hdrop : dropSuffix? "Controller".toList name.toList with
  | none =>
    have hnot : ∀ stem, name.toList ≠ stem ++ "Controller".toList := by
      intro stem h
      rw [dropSuffix?_eq_some.2 h] at hdrop
      cases hdrop
    constructor
    · rintro (⟨_, h⟩ | _)
      · exact absurd h (hnot stem)
      · rfl
    · rintro rfl
      exact .whole fun stem h => absurd h (hnot stem)
  | some before =>
    have hname := dropSuffix?_eq_some.1 hdrop
    have hbefore : ∀ stem, name.toList = stem ++ "Controller".toList ↔ stem = before := by
      intro stem
      rw [hname, List.append_left_inj]
      exact eq_comm
    cases before with
    | nil =>
      constructor
      · rintro (⟨hstem, h⟩ | _)
        · exact absurd ((hbefore stem).1 h) hstem
        · rfl
      · rintro rfl
        exact .whole fun stem h => (hbefore stem).1 h
    | cons c rest =>
      rw [String.toList_ofList]
      constructor
      · rintro (⟨_, h⟩ | h)
        · exact (hbefore stem).1 h
        · exact absurd (h _ hname) (List.cons_ne_nil c rest)
      · rintro rfl
        exact .ending (List.cons_ne_nil c rest) hname

/-- The name of a class stands for exactly one member, the name of its group. -/
theorem takesMember_iff {name member : String} :
    TakesMember name member ↔ member = camelize (groupName name) := by
  unfold TakesMember camelize
  simp only [hasStem_iff]
  cases hgroup : (groupName name).toList with
  | nil => simp
  | cons c rest =>
    constructor
    · rintro (⟨h, _⟩ | ⟨c', rest', h, hmember⟩)
      · cases h
      · obtain ⟨rfl, rfl⟩ := List.cons.inj h
        exact (String.ofList_toList (s := member)).symm.trans (congrArg String.ofList hmember)
    · rintro rfl
      exact .inr ⟨c, rest, rfl, String.toList_ofList⟩

/-! ## Groups of controllers -/

namespace Registry

variable {r : Registry} {bases : List String}

theorem nodup_controllerClasses (r : Registry) (bases : List String) :
    (r.controllerClasses bases).Nodup := by
  refine List.Nodup.filterMap ?_ r.ids_nodup
  intro id id' c hc hc'
  exact (controllerClass?_eq_some.1 hc).1.trans (controllerClass?_eq_some.1 hc').1.symm

theorem map_controllers_perm {α : Type} (f : String → α) :
    ((r.controllers bases).map fun c => f c.group).Perm
      ((r.controllerClasses bases).map fun c => f (groupName c.2.name)) := by
  rw [controllers_eq, List.map_map]
  exact ((sortByText_perm _ _).trans (sortByTexts_perm _ _)).map _

/-- The groups have different names exactly if no two controllers take one member. -/
theorem nodup_groupNames_iff :
    ((r.service (r.controllers bases)).groups.map ServiceGroup.name).Nodup ↔
      ∀ d d', r.DeclaresController bases d → r.DeclaresController bases d' →
        ∀ member, TakesMember d.name member → TakesMember d'.name member → d = d' := by
  have hnames : (r.service (r.controllers bases)).groups.map ServiceGroup.name =
      (r.controllers bases).map fun c => camelize c.group := by
    rw [groups_service, List.map_map]
    rfl
  rw [hnames, (map_controllers_perm camelize).nodup_iff,
    List.nodup_map_iff_inj_on (nodup_controllerClasses r bases)]
  constructor
  · rintro h d d' ⟨id, hget, hd⟩ ⟨id', hget', hd'⟩ member htakes htakes'
    have hmember := (takesMember_iff.1 htakes).symm.trans (takesMember_iff.1 htakes')
    have heq := h (id, d) (mem_controllerClasses.2 ⟨hget, hd⟩) (id', d')
      (mem_controllerClasses.2 ⟨hget', hd'⟩) hmember
    exact congrArg Prod.snd heq
  · intro h c hc c' hc' hmember
    have hd : ∀ c ∈ r.controllerClasses bases, r.DeclaresController bases c.2 :=
      fun c hc => ⟨c.1, mem_controllerClasses.1 hc⟩
    have heq := h c.2 c'.2 (hd c hc) (hd c' hc') _ (takesMember_iff.2 rfl)
      (takesMember_iff.2 hmember)
    exact eq_of_mem_controllerClasses hc hc' (congrArg (fun d : TypeDef => d.key) heq)

theorem mem_groupNames_iff {name : String} :
    name ∈ (r.service (r.controllers bases)).groups.map ServiceGroup.name ↔
      ∃ d, r.DeclaresController bases d ∧ TakesMember d.name name := by
  rw [groups_service, List.map_map, List.mem_map]
  constructor
  · rintro ⟨c, hc, rfl⟩
    obtain ⟨id, d, hget, hd, rfl⟩ := mem_controllers.1 hc
    exact ⟨d, ⟨id, hget, hd⟩, takesMember_iff.2 rfl⟩
  · rintro ⟨d, ⟨id, hget, hd⟩, htakes⟩
    exact ⟨r.controller id d, mem_controllers.2 ⟨id, d, hget, hd, rfl⟩,
      (takesMember_iff.1 htakes).symm⟩

end Registry

/-! ## Members -/

namespace Service

variable {s : Service} {dialect : Dialect}

theorem nodup_members_iff : (s.members dialect).Nodup ↔
    (s.groups.map ServiceGroup.name).Nodup ∧
      ∀ name ∈ s.groups.map ServiceGroup.name, name ∉ dialect.ownMembers := by
  have hown : dialect.ownMembers.Nodup := by
    cases dialect <;> decide
  rw [members, List.nodup_append', and_iff_right hown, List.disjoint_comm]
  rfl

/-- Groups with different names are not written over. -/
theorem member?_eq_some (h : (s.groups.map ServiceGroup.name).Nodup) {g : ServiceGroup}
    (hg : g ∈ s.groups) : s.member? g.name = some g := by
  have hreverse : (s.groups.reverse.map ServiceGroup.name).Nodup := by
    rw [List.map_reverse]
    exact List.nodup_reverse.2 h
  -- The last of a name is the first one from the end.
  have hfirst := (forall_isFirst_iff hreverse.of_map).2 hreverse g (List.mem_reverse.2 hg)
  exact hfirst.find?_eq

end Service

/-- The members of the class are different, and no group is lost, exactly if no two controllers take
one member and none takes one that the class has anyway. In particular two controllers whose classes
have the same name, in two namespaces or modules, take one member. -/
theorem Registry.keepsMembers_iff (r : Registry) (bases : List String) (dialect : Dialect) :
    r.KeepsMembers bases dialect ↔
      (∀ d d', r.DeclaresController bases d → r.DeclaresController bases d' →
        ∀ member, TakesMember d.name member → TakesMember d'.name member → d = d') ∧
      ∀ d, r.DeclaresController bases d →
        ∀ member ∈ dialect.ownMembers, ¬ TakesMember d.name member := by
  have hown : (∀ name ∈ (r.service (r.controllers bases)).groups.map ServiceGroup.name,
      name ∉ dialect.ownMembers) ↔
        ∀ d, r.DeclaresController bases d →
          ∀ member ∈ dialect.ownMembers, ¬ TakesMember d.name member := by
    constructor
    · intro h d hd member hmember htakes
      exact h member (mem_groupNames_iff.2 ⟨d, hd, htakes⟩) hmember
    · intro h name hname hmember
      obtain ⟨d, hd, htakes⟩ := mem_groupNames_iff.1 hname
      exact h d hd name hmember htakes
  rw [← nodup_groupNames_iff, ← hown]
  constructor
  · intro h
    exact Service.nodup_members_iff.1 h.distinct
  · rintro ⟨hdistinct, hapart⟩
    exact ⟨Service.nodup_members_iff.2 ⟨hdistinct, hapart⟩,
      fun g hg => Service.member?_eq_some hdistinct hg⟩

namespace Registry

/-- A controller of a namespace. -/
def widgetController (space : String) : TypeDef where
  toDeclaration := ⟨"Shop", space, "WidgetController", .classType⟩
  toBody := { Body.empty with
    base := some (.external "ApiController" []) }

/-- Two controllers of one name in different namespaces. -/
def widgets : Registry where
  types := [widgetController "Shop.Api", widgetController "Shop.Admin"]
  nodup := by decide

/-- Both have the member `widget`. -/
theorem not_keepsMembers_widgets : ¬ widgets.KeepsMembers ["ApiController"] .angular := by
  intro h
  have hcontroller : ∀ space id, widgets.get? id = some (widgetController space) →
      widgets.DeclaresController ["ApiController"] (widgetController space) :=
    fun space id hget => ⟨id, hget, rfl⟩
  have htakes : TakesMember "WidgetController" "widget" := takesMember_iff.2 (by decide +kernel)
  have hdistinct := nodup_groupNames_iff.1 (Service.nodup_members_iff.1 h.distinct).1
  have heq := hdistinct (widgetController "Shop.Api") (widgetController "Shop.Admin")
    (hcontroller _ ⟨0⟩ rfl) (hcontroller _ ⟨1⟩ rfl) "widget" htakes htakes
  have hspace : "Shop.Api" = "Shop.Admin" := congrArg (fun d : TypeDef => d.space) heq
  exact absurd hspace (by decide)

end Registry

/-! ## The file of a service -/

namespace Template

variable {context : Json.Value} {content result : String} {ps : Template}
  {groups : List GroupContext}

/-- The text of a group begins with its name. -/
theorem exists_of_serviceGroups (hmem : serviceGroups result ∈ ps)
    (hgroups : find? ["groups"] context = some (.array (groups.map GroupContext.json)))
    (h : renderParts ps context = .ok content) :
    ∃ before texts after, content = before ++ String.join texts ++ after ∧
      List.Forall₂ (fun g text => ∃ rest, text = "\t" ++ g.name ++ " = \x7b" ++ rest)
        groups texts := by
  obtain ⟨before, texts, after, hcontent, htexts⟩ :=
    exists_eq_join_of_named GroupContext.name hmem hgroups (fun _ => rfl) h
  refine ⟨before, texts, after, hcontent, htexts.imp ?_⟩
  rintro g _ ⟨rest, rfl⟩
  exact ⟨"\n" ++ rest, by simp only [String.append_assoc]⟩

theorem isWithin_of_line (s rest : String) (h : line (s ++ rest) ∈ ps)
    (hps : renderParts ps context = .ok content) : IsWithin s content :=
  (((IsWithin.refl s).append_right rest).append_right "\n").trans (isWithin_of_text h hps)

/-- Two lines of which one is chosen begin alike. -/
theorem isWithin_of_lines (path : Path) (s yes no : String)
    (h : .choice path [line (s ++ yes)] [line (s ++ no)] ∈ ps)
    (hps : renderParts ps context = .ok content) : IsWithin s content := by
  obtain ⟨a, ha, hwithin⟩ := exists_of_choice h hps
  refine IsWithin.trans ?_ hwithin
  split at ha
  · exact isWithin_of_line s yes (.head _) ha
  · exact isWithin_of_line s no (.head _) ha

end Template

/-! ## Declarations -/

variable {s : Service} {o : Options} {apiPath content text : String}

open Template

theorem Angular.isWithin_ownDeclaration (ho : o.dialect = .angular)
    (h : s.render o apiPath = .ok content) (htext : text ∈ Dialect.ownDeclarations .angular) :
    IsWithin text content := by
  have hparts := (renderService_eq_ok ho).1 h
  simp only [Dialect.ownDeclarations, List.mem_cons, List.not_mem_nil, or_false] at htext
  rcases htext with rfl | rfl | rfl
  · exact isWithin_of_lines ["legacy_http"] _ "Http) \x7b\x7d" "HttpClient) \x7b\x7d"
      (by simp [angularService]) hparts
  · exact isWithin_of_text (by simp [angularService, apiPathField]) hparts
  · exact isWithin_of_lines ["legacy_http"] _ "Response | any) \x7b"
      "HttpErrorResponse | any) \x7b" (by simp [angularService, errorHandler]) hparts

theorem React.isWithin_ownDeclaration (ho : o.dialect = .react)
    (h : s.render o apiPath = .ok content) (htext : text ∈ Dialect.ownDeclarations .react) :
    IsWithin text content := by
  have hparts := (renderService_eq_ok ho).1 h
  simp only [Dialect.ownDeclarations, List.mem_cons, List.not_mem_nil, or_false] at htext
  rcases htext with rfl | rfl
  · exact isWithin_of_line _ "IDataServiceHttpClient) \x7b\x7d" (by simp [reactService]) hparts
  · exact isWithin_of_text (by simp [reactService, apiPathField]) hparts

/-- The file of a service declares its members. -/
theorem declaresMembers_render (h : s.render o apiPath = .ok content) :
    s.DeclaresMembers o.dialect content := by
  cases ho : o.dialect with
  | angular =>
    obtain ⟨before, texts, after, hcontent, htexts⟩ := exists_of_serviceGroups
      serviceGroups_mem_angularService rfl ((Angular.renderService_eq_ok ho).1 h)
    exact {
      groups := ⟨before, texts, after, hcontent, List.forall₂_map_left_iff.1 htexts⟩
      own := fun text htext => Angular.isWithin_ownDeclaration ho h htext }
  | react =>
    obtain ⟨before, texts, after, hcontent, htexts⟩ := exists_of_serviceGroups
      serviceGroups_mem_reactService rfl ((React.renderService_eq_ok ho).1 h)
    exact {
      groups := ⟨before, texts, after, hcontent, List.forall₂_map_left_iff.1 htexts⟩
      own := fun text htext => React.isWithin_ownDeclaration ho h htext }

end ApiClient
