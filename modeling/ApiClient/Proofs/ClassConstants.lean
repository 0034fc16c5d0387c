import ApiClient.Proofs.ClassImports
import ApiClient.Proofs.Literals
import ApiClient.Proofs.RequestArguments

/-!
# Constants of classes

A class declares its constants one in a line. The value of a constant is any text of the metadata;
in a constant of type text it is written as a literal, which it must not leave.

Results:
* `Angular.exists_render`: every class has a file.
* `Angular.exists_eq_join_constantLine`: it declares the constants in lines of their own.
* `Registry.assigns_constants`: the literal of a text constant is read as the text, and the line
  goes on after it.
-/

namespace ApiClient

open Text

/-! ## Specification -/

/-- In the code something is declared with a literal of the value: the literal is read as that
value, and the declaration ends with it. -/
def TypeScript.Assigns (code declared value : String) : Prop :=
  ∃ before literal after, code = before ++ declared ++ " = " ++ literal ++ ";\n" ++ after ∧
    IsLiteral literal value ∧
    Literal.read (literal ++ ";\n" ++ after).toList =
      some (Literal.value value.toList, (";\n" ++ after).toList)

namespace Angular

open Json Template

/-- The declaration of a constant. -/
def constantHead (name type : String) : String :=
  "\tpublic static readonly " ++ name ++ ": " ++ type

/-- The line of a constant. -/
def constantLine (c : MappedConstant) : String :=
  constantHead c.name c.typeName ++ " = " ++ c.value ++ ";\n"

/-- The parts of the line of a constant. -/
def constantParts : List Part := [
  .text "\tpublic static readonly ", key "name", .text ": ", key "type_name", .text " = ",
  key "value", line ";"]

theorem renderParts_constantParts (c : MappedConstant) :
    renderParts constantParts (constantJson c) = .ok (constantLine c) := by
  have hline : constantLine c = String.join
      ["\tpublic static readonly ", c.name, ": ", c.typeName, " = ", c.value, ";\n"] := by
    unfold constantLine constantHead
    simp only [String.join_cons, String.join_nil, String.append_assoc, String.append_empty]
  rw [hline]
  have hkey : ∀ {name s : String}, find? [name] (constantJson c) = some (.string s) →
      renderPart (key name) (constantJson c) = .ok s := by
    intro name s h
    rw [key, renderPart, h]
    rfl
  have hname := hkey (by rfl : find? ["name"] (constantJson c) = some (.string c.name))
  have htype := hkey (by rfl : find? ["type_name"] (constantJson c) = some (.string c.typeName))
  have hvalue := hkey (by rfl : find? ["value"] (constantJson c) = some (.string c.value))
  exact renderParts_eq_join (.cons rfl (.cons hname (.cons rfl (.cons htype (.cons rfl
    (.cons hvalue (.cons rfl .nil)))))))

/-! ## Files -/

variable {o : Options} {v : ModelView}

/-- Every class has a file. -/
theorem exists_render (ho : o.dialect = .angular) (v : ModelView) :
    ∃ content, v.render o = .ok content := by
  simp only [render_eq_ok ho]
  exact exists_renderParts_of_isSupplied _ _ (isSupplied_angularClass _)

/-- A class declares its constants in lines of their own. -/
theorem exists_eq_join_constantLine {content : String} (ho : o.dialect = .angular)
    (h : v.render o = .ok content) :
    ∃ before after, content = before ++ String.join (v.constants.map constantLine) ++ after := by
  have hmem : forEach "constants" constantParts ∈ angularClass := by
    simp [angularClass, constantParts]
  have hconstants : find? ["constants"] (classContext o v).json =
      some (.array (v.constants.map constantJson)) := rfl
  obtain ⟨before, texts, after, hcontent, htexts⟩ :=
    exists_eq_join_of_mem hmem hconstants ((render_eq_ok ho).1 h)
  have hlines : v.constants.map constantLine = texts := by
    rw [← List.forall₂_eq_eq_eq, List.forall₂_map_left_iff]
    refine (List.forall₂_map_left_iff.1 htexts).imp fun c text htext => ?_
    exact Except.ok.inj ((renderParts_constantParts c).symm.trans htext)
  exact ⟨before, after, by rw [hcontent, hlines]⟩

end Angular

/-! ## Constants of type text -/

namespace Registry

open TypeScript

variable {r : Registry} {d : TypeDef} {c : ConstantDef}

/-- A constant of type text is written as a literal. -/
theorem constantLine_of_string (h : r.map false c.type = .primitive .string) :
    Angular.constantLine (mappedConstant c (r.map false c.type)) =
      Angular.constantHead c.name "string" ++ " = " ++ quote c.value ++ ";\n" := by
  rw [h]
  rfl

/-- A text is quoted as a literal of itself, and no two texts as the same one. Every class has a
file that declares its constants in lines of their own, and in each constant of type text that the
class emits the literal is read as the text and the declaration ends after it. -/
theorem assigns_constants :
    (∀ s, IsLiteral (quote s) s) ∧ Function.Injective quote ∧
    ∀ (r : Registry) (id : TypeId) (d : TypeDef) (o : Options), o.dialect = .angular →
      ∃ content before after, (r.view id d).render o = .ok content ∧
        content =
          before ++ String.join ((r.view id d).constants.map Angular.constantLine) ++ after ∧
        ∀ c ∈ d.constants, r.Emits d c → r.map false c.type = .primitive .string →
          Assigns content (Angular.constantHead c.name "string") c.value := by
  refine ⟨isLiteral_quote, quote_injective, fun r id d o ho => ?_⟩
  obtain ⟨content, hcontent⟩ := Angular.exists_render ho (r.view id d)
  obtain ⟨before, after, hlines⟩ := Angular.exists_eq_join_constantLine ho hcontent
  refine ⟨content, before, after, hcontent, hlines, fun c hc hemits htype => ?_⟩
  have hmem : mappedConstant c (r.map false c.type) ∈ (r.view id d).constants :=
    mem_mappedConstants.2 ⟨c, hc, hemits, rfl⟩
  obtain ⟨cs, cs', hcs⟩ := List.append_of_mem hmem
  rw [hcs, List.map_append, List.map_cons, String.join_append, String.join_cons,
    constantLine_of_string htype] at hlines
  refine ⟨before ++ String.join (cs.map Angular.constantLine), quote c.value,
    String.join (cs'.map Angular.constantLine) ++ after, ?_, isLiteral_quote c.value, ?_⟩
  · rw [hlines]
    simp only [String.append_assoc]
  · rw [String.append_assoc, String.toList_append]
    exact (isLiteral_quote c.value).read_append _

/-- A text that holds what a literal must not. -/
def motto : ConstantDef := ⟨"Motto", .external "string" [], "it's \\'\n", false⟩

/-- A class with this constant. -/
def badgeClass : TypeDef where
  toDeclaration := ⟨"Shop", "", "Badge", .classType⟩
  toBody := { Body.empty with constants := [motto] }

/-- The class alone. -/
def badges : Registry where
  types := [badgeClass]
  nodup := by decide

theorem assigns_constants_badge : (Options.initial "in" "out").dialect = .angular ∧
    ∃ content, (badges.view ⟨0⟩ badgeClass).render (Options.initial "in" "out") = .ok content ∧
      Assigns content (Angular.constantHead "Motto" "string") "it's \\'\n" := by
  have hdialect : (Options.initial "in" "out").dialect = .angular := rfl
  have htype : badges.map false motto.type = .primitive .string := by decide +kernel
  have hemits : badges.Emits badgeClass motto := by
    rw [Emits, if_neg (by decide)]
    exact .inr htype
  obtain ⟨content, _, _, hcontent, _, hassigns⟩ :=
    assigns_constants.2.2 badges ⟨0⟩ badgeClass (Options.initial "in" "out") hdialect
  exact ⟨hdialect, content, hcontent, hassigns motto (List.mem_singleton_self motto) hemits htype⟩

end Registry

end ApiClient
