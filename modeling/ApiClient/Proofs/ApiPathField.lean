import ApiClient.Proofs.Literals
import ApiClient.Proofs.RequestArguments
import Mathlib.Data.List.DropRight
import Mathlib.Tactic.TFAE

/-!
# The API path of a service

The service keeps the API path of the options in a field. The template puts the path between quotes
as it is, unlike texts of constants, which are written as literals.

Results:
* `Service.exists_frame`: a service always has a file, and apart from the initialiser of the field
  it is the same for every path.
* `Options.exists_apiPath`: a path that is not blank is set, without slashes after it.
* `initializer_eq_quote_iff`: the initialiser is the literal of the path exactly if the path holds
  neither quotes nor backslashes nor line breaks.
* `initializer_ne_quote`: for some path it is not.
-/

namespace ApiClient

open Json

/-! ## Specification -/

namespace Service

/-- What stands before the initialiser of the field. -/
def pathFieldHead : String := "\tapiRelativePath: string = "

/-- The code of a service around the initialiser of the field. -/
def around (before initializer after : String) : String :=
  before ++ pathFieldHead ++ initializer ++ ";\n" ++ after

end Service

/-! ## The field -/

namespace Template

/-- The field takes the path as it is. -/
theorem renderParts_apiPathField {context : Value} {path : String}
    (hpath : find? ["api_relative_path"] context = some (.string path)) :
    renderParts apiPathField context =
      .ok (String.join ["\tapiRelativePath: string = '", path, "';\n", "\n"]) := by
  have hkey : renderPart (key "api_relative_path") context = .ok path := by
    rw [key, renderPart, hpath]
    rfl
  exact renderParts_eq_join (.cons rfl (.cons hkey (.cons rfl (.cons rfl .nil))))

/-- Of a template with the field, all but the initialiser is the same for contexts that differ in
the path only. -/
theorem exists_frame_of_apiPathField {pre post : List Part} {context : String → Value}
    (hpath : ∀ path, find? ["api_relative_path"] (context path) = some (.string path))
    (hother : ∀ path, ∀ p ∈ lookups pre ++ lookups post, find? p (context path) =
      find? p (context ""))
    (hfilled : ∃ content, renderParts (pre ++ apiPathField ++ post) (context "") = .ok content) :
    ∃ before after, ∀ path, renderParts (pre ++ apiPathField ++ post) (context path) =
      .ok (Service.around before ("'" ++ path ++ "'") after) := by
  -- What stands around the field is taken from the file for the empty path.
  obtain ⟨_, hcontent⟩ := hfilled
  obtain ⟨_, after, hfront, hafter, _⟩ := renderParts_append_eq_ok.1 hcontent
  obtain ⟨before, _, hbefore, _, _⟩ := renderParts_append_eq_ok.1 hfront
  refine ⟨before, "\n" ++ after, fun path => ?_⟩
  have hpre : renderParts pre (context path) = .ok before := by
    rw [renderParts_congr pre fun p hp => hother path p (List.mem_append_left _ hp), hbefore]
  have hpost : renderParts post (context path) = .ok after := by
    rw [renderParts_congr post fun p hp => hother path p (List.mem_append_right _ hp), hafter]
  have hfield := renderParts_apiPathField (hpath path)
  refine renderParts_append_eq_ok.2 ⟨_, after,
    renderParts_append_eq_ok.2 ⟨before, _, hpre, hfield, rfl⟩, hpost, ?_⟩
  apply String.toList_injective
  simp [Service.around, Service.pathFieldHead]

/-- The path looks something up below another key. -/
def Avoids (name : String) (path : Path) : Prop :=
  ∃ key keys, path = key :: keys ∧ name ≠ key

instance {name : String} {path : Path} : Decidable (Avoids name path) :=
  match path with
  | [] => .isFalse (by simp [Avoids])
  | key :: keys => decidable_of_iff (name ≠ key) (by simp [Avoids])

/-- A member of an object is not seen by what looks others up. -/
theorem find?_object_of_avoids {name : String} {path : Path} (h : Avoids name path)
    (members members' : List (String × Value)) (v v' : Value) :
    find? path (.object (members ++ (name, v) :: members')) =
      find? path (.object (members ++ (name, v') :: members')) := by
  obtain ⟨key, keys, rfl, hname⟩ := h
  simp [find?, Value.get?, List.find?_append, hname]

end Template

/-! ## Services -/

namespace Angular

open Template

variable {o : Options}

/-- A service of observables always has a file. -/
theorem exists_renderService (ho : o.dialect = .angular) (s : Service) (path : String) :
    ∃ content, s.render o path = .ok content := by
  simp only [renderService_eq_ok ho]
  exact exists_renderParts_of_isSupplied _ _ (isSupplied_angularService _)

theorem find?_context_of_avoids {p : Path} (h : Avoids "api_relative_path" p) (s : Service)
    (path path' : String) :
    find? p (serviceContext o s path).json = find? p (serviceContext o s path').json := by
  let c := serviceContext o s path
  exact find?_object_of_avoids h
    [("legacy_http", .bool c.legacyHttp), ("handle_errors", .bool c.handleErrors),
      ("uses_moment", .bool c.usesMoment), ("combine_imports", .bool c.combineImports),
      ("imports", importsJson c.imports)]
    [("groups", .array (c.groups.map GroupContext.json))] (.string path) (.string path')

/-- The path is looked up by its field only. -/
theorem exists_append_apiPathField : ∃ pre post, angularService = pre ++ apiPathField ++ post ∧
    ∀ p ∈ lookups pre ++ lookups post, Avoids "api_relative_path" p := by
  refine ⟨_, _, (List.append_assoc ..).trans (List.append_assoc ..), ?_⟩
  decide +kernel

theorem exists_frame (ho : o.dialect = .angular) (s : Service) : ∃ before after, ∀ path,
    s.render o path = .ok (Service.around before ("'" ++ path ++ "'") after) := by
  obtain ⟨pre, post, hparts, hlookups⟩ := exists_append_apiPathField
  simp only [renderService_eq_ok ho]
  rw [hparts]
  refine exists_frame_of_apiPathField (fun _ => rfl)
    (fun path p hp => find?_context_of_avoids (hlookups p hp) s path "") ?_
  rw [← hparts]
  simpa only [renderService_eq_ok ho] using exists_renderService ho s ""

end Angular

namespace React

open Template

variable {o : Options}

theorem find?_context_of_avoids {p : Path} (h : Avoids "api_relative_path" p) (s : Service)
    (path path' : String) :
    find? p (serviceContext o s path).json = find? p (serviceContext o s path').json := by
  let c := serviceContext o s path
  exact find?_object_of_avoids h
    [("uses_moment", .bool c.usesMoment), ("combine_imports", .bool c.combineImports),
      ("imports", importsJson c.imports)]
    [("groups", .array (c.groups.map GroupContext.json))] (.string path) (.string path')

/-- The path is looked up by its field only. -/
theorem exists_append_apiPathField : ∃ pre post, reactService = pre ++ apiPathField ++ post ∧
    ∀ p ∈ lookups pre ++ lookups post, Avoids "api_relative_path" p := by
  refine ⟨_, _, rfl, ?_⟩
  decide +kernel

theorem exists_frame (ho : o.dialect = .react) (s : Service) : ∃ before after, ∀ path,
    s.render o path = .ok (Service.around before ("'" ++ path ++ "'") after) := by
  obtain ⟨pre, post, hparts, hlookups⟩ := exists_append_apiPathField
  simp only [renderService_eq_ok ho]
  rw [hparts]
  refine exists_frame_of_apiPathField (fun _ => rfl)
    (fun path p hp => find?_context_of_avoids (hlookups p hp) s path "") ?_
  rw [← hparts]
  simpa only [renderService_eq_ok ho] using exists_renderService ho s ""

end React

/-- A service always has a file, and apart from the initialiser of the field it is the same for
every path. -/
theorem Service.exists_frame (s : Service) (o : Options) : ∃ before after, ∀ path,
    s.render o path = .ok (around before ("'" ++ path ++ "'") after) := by
  cases ho : o.dialect with
  | angular => exact Angular.exists_frame ho s
  | react => exact React.exists_frame ho s

/-! ## Paths -/

theorem Text.dropBlanks_eq_nil_iff {cs : List Char} : dropBlanks cs = [] ↔ ∀ c ∈ cs, isBlank c := by
  rw [dropBlanks, List.dropWhile_eq_nil_iff]

theorem Text.trim_eq_empty_iff {s : String} : trim s = "" ↔ isBlankText s = true := by
  have hstart : (∀ c ∈ dropBlanks s.toList, isBlank c) ↔ ∀ c ∈ s.toList, isBlank c := by
    have htwice : dropBlanks (dropBlanks s.toList) = dropBlanks s.toList :=
      List.dropWhile_idempotent ..
    rw [← dropBlanks_eq_nil_iff, htwice, dropBlanks_eq_nil_iff]
  rw [trim, trimEnd, trimStart, String.toList_ofList, isBlankText, List.all_eq_true, ← hstart,
    ← String.toList_inj, String.toList_ofList, String.toList_empty, List.reverse_eq_nil_iff,
    dropBlanks_eq_nil_iff]
  simp only [List.mem_reverse]

theorem Text.dropEnd_dropEnd (c : Char) (cs : List Char) :
    dropEnd c (dropEnd c cs) = dropEnd c cs := by
  simp only [dropEnd, List.reverse_reverse, List.dropWhile_idempotent]

/-- A path that is not blank is set, and has no slashes after it. -/
theorem Options.exists_apiPath {text : String} (h : Text.isBlankText text = false) (o : Options) :
    ∃ path, (o.withApiPath text).apiPath = some path ∧
      String.ofList (Text.dropEnd '/' path.toList) = path := by
  have htrim : (Text.trim text).isEmpty = false := by
    rw [Bool.eq_false_iff, ne_eq, String.isEmpty_iff, Text.trim_eq_empty_iff, h]
    exact Bool.false_ne_true
  refine ⟨_, by simp only [withApiPath_eq, htrim]; rfl, ?_⟩
  rw [String.toList_ofList, Text.dropEnd_dropEnd]

/-- A service does not depend on the path that the options hold. -/
theorem Service.render_withApiPath (s : Service) (o : Options) (text path : String) :
    s.render (o.withApiPath text) path = s.render o path := by
  simp only [Options.withApiPath_eq, render, context, Angular.serviceContext, React.serviceContext]

namespace Service

open TypeScript

/-- With a path that is not blank every service has a file. Apart from the initialiser of the field
it is the same for all paths. The initialiser is the literal of the path, or is read as the path up
to its own end, exactly if the path holds neither quotes nor backslashes nor line breaks. -/
theorem initializer_eq_quote_iff (s : Service) (o : Options) : ∃ before after, ∀ text,
    Text.isBlankText text = false → ∃ path initializer,
      (o.withApiPath text).apiPath = some path ∧
      s.render (o.withApiPath text) path = .ok (around before initializer after) ∧
      (∀ sc : Scan, sc.registry.service sc.controllers = s →
        sc.serviceFile? (o.withApiPath text) =
          .ok (some ⟨codePath serviceName, around before initializer after⟩)) ∧
      [initializer = TypeScript.quote path,
        Literal.read (initializer ++ ";\n" ++ after).toList =
          some (Literal.value path.toList, (";\n" ++ after).toList),
        ∀ c ∈ path.toList, Literal.IsPlain c].TFAE := by
  obtain ⟨before, after, hrender⟩ := s.exists_frame o
  refine ⟨before, after, fun text htext => ?_⟩
  obtain ⟨path, hpath, hend⟩ := o.exists_apiPath htext
  have hfile : s.render (o.withApiPath text) path =
      .ok (around before ("'" ++ path ++ "'") after) := by
    rw [render_withApiPath, hrender]
  refine ⟨path, "'" ++ path ++ "'", hpath, hfile, ?_, ?_⟩
  · rintro sc rfl
    rw [Scan.serviceFile?, hpath]
    simp only [hend, hfile]
    rfl
  · tfae_have 1 ↔ 3 := eq_comm.trans quote_eq_iff
    tfae_have 2 ↔ 3 := by
      have hcode : ("'" ++ path ++ "'" ++ ";\n" ++ after).toList =
          '\'' :: (path.toList ++ '\'' :: (";\n" ++ after).toList) := by
        simp
      rw [hcode]
      exact Literal.read_quoted_iff
    tfae_finish

/-- The scan of no modules. -/
def noModules : Scan :=
  Scan.ofModules ["ApiController"] (Loader.load (.ofPending []))

theorem initializer_eq_quote_iff_api : Text.isBlankText " /api/ " = false ∧
    ∃ before after,
      noModules.serviceFile? ((Options.initial "in" "out").withApiPath " /api/ ") =
        .ok (some ⟨codePath serviceName, around before (TypeScript.quote "/api") after⟩) ∧
      Literal.read (TypeScript.quote "/api" ++ ";\n" ++ after).toList =
        some (Literal.value "/api".toList, (";\n" ++ after).toList) := by
  have htext : Text.isBlankText " /api/ " = false := by
    decide
  obtain ⟨before, after, h⟩ := initializer_eq_quote_iff
    (noModules.registry.service noModules.controllers) (Options.initial "in" "out")
  obtain ⟨path, initializer, hpath, _, hfile, htfae⟩ := h " /api/ " htext
  obtain rfl : path = "/api" := Option.some.inj (hpath.symm.trans (by decide))
  have hplain : ∀ c ∈ "/api".toList, Literal.IsPlain c := by
    simp [Literal.IsPlain]
  obtain rfl := (htfae.out 2 0).1 hplain
  exact ⟨htext, before, after, hfile noModules rfl, (htfae.out 2 1).1 hplain⟩

/-- The path `it's` ends the literal at its quote. -/
theorem initializer_ne_quote :
    ((Options.initial "in" "out").withApiPath "it's").apiPath = some "it's" ∧ ∃ before after,
      noModules.serviceFile? ((Options.initial "in" "out").withApiPath "it's") =
        .ok (some ⟨codePath serviceName, around before "'it's'" after⟩) ∧
      "'it's'" ≠ TypeScript.quote "it's" ∧
      Literal.read ("'it's'" ++ ";\n" ++ after).toList =
        some (Literal.value "it".toList, ("s';\n" ++ after).toList) := by
  have hpath : ((Options.initial "in" "out").withApiPath "it's").apiPath = some "it's" := by
    decide
  obtain ⟨before, after, hrender⟩ := (noModules.registry.service noModules.controllers).exists_frame
    ((Options.initial "in" "out").withApiPath "it's")
  refine ⟨hpath, before, after, ?_, by decide, ?_⟩
  · have hend : String.ofList (Text.dropEnd '/' "it's".toList) = "it's" := by
      decide
    rw [Scan.serviceFile?, hpath]
    simp only [hend, hrender]
    rfl
  · have hcode : ("'it's'" ++ ";\n" ++ after).toList =
        '\'' :: ("it".toList ++ '\'' :: ("s';\n" ++ after).toList) := by
      simp
    rw [hcode, Literal.read_quoted_iff]
    simp [Literal.IsPlain]

end Service

end ApiClient
