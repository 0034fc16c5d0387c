import ApiClient.Proofs.TypeExpr.Reading

/-!
# Reading what is printed

The printed form of an expression whose names are well formed is a text of the grammar: it has a
derivation that means the expression, an argument list for each list of arguments and one suffix
more for each array. Reading gives the meaning of any derivation, so it gives the expression back.

Results:
* `exists_derivation`: a printed expression has a derivation that means it.
* `parse_display`: what is printed is read back.
* `display_canonical`: printing is a canonical form of the texts that are read.
-/

namespace ApiClient.TypeExpr

namespace Derivation

/-! ## Suffixes -/

/-- The derivation with one suffix more. -/
def suffixed : Derivation → Suffix → Derivation
  | expr name args suffixes, s => expr name args (suffixes ++ [s])

theorem tokens_suffixed (d : Derivation) (s : Suffix) :
    (d.suffixed s).tokens = d.tokens ++ s.tokens := by
  obtain ⟨name, args, suffixes⟩ := d
  cases args <;> simp [suffixed, tokens_expr, laterThanName]

theorem meaning_suffixed (d : Derivation) (s : Suffix) :
    (d.suffixed s).meaning = s.apply d.meaning := by
  obtain ⟨name, args, suffixes⟩ := d
  simp [suffixed, meaning]

/-! ## Derivations of printed expressions -/

/-- A blank may be put before a derivation. -/
theorem spells_cons_blank {d : Derivation} {c : Char} {text : List Char}
    (hc : Text.isBlank c = true) (h : Spells d.tokens text) : Spells d.tokens (c :: text) := by
  obtain ⟨name, args, suffixes⟩ := d
  rw [tokens_expr] at h ⊢
  obtain ⟨blanks, later, rfl, hlater, hblanks⟩ := spells_cons_iff.1 h
  exact .cons (List.forall_mem_cons.2 ⟨hc, hblanks⟩) hlater

/-- The arguments after the first one are printed with a comma and a blank before each. -/
theorem exists_laterTokens {es : List TypeExpr}
    (h : ∀ e ∈ es, ∃ d : Derivation, d.meaning = e ∧ Spells d.tokens e.chars) :
    ∃ ds : List Derivation, ds.map meaning = es ∧ Spells (laterTokens ds) (argumentChars es) := by
  induction es with
  | nil => exact ⟨[], rfl, .nil⟩
  | cons e es ih =>
    obtain ⟨d, hd, hfirst⟩ := h e (.head _)
    obtain ⟨ds, hds, hlater⟩ := ih fun e he => h e (.tail _ he)
    have hblank : Text.isBlank ' ' = true := by decide
    have hnone : ∀ c ∈ ([] : List Char), Text.isBlank c = true := by simp
    refine ⟨d :: ds, by rw [List.map_cons, hd, hds], ?_⟩
    exact .cons hnone ((spells_cons_blank hblank hfirst).append hlater)

/-- The printed form of an expression with well-formed names has a derivation that means it. -/
theorem exists_derivation {e : TypeExpr} (h : e.wellNamed = true) :
    ∃ d : Derivation, d.meaning = e ∧ Spells d.tokens e.chars := by
  have hnone : ∀ c ∈ ([] : List Char), Text.isBlank c = true := by simp
  induction e using TypeExpr.induction with
  | named name args ih =>
    obtain ⟨hname, hargs⟩ := wellNamed_named.1 h
    cases args with
    | nil =>
      have hspells := Spells.cons (t := .name ⟨name, isName_iff.1 hname⟩) hnone .nil
      rw [List.append_nil] at hspells
      exact ⟨.expr ⟨name, isName_iff.1 hname⟩ [] [], rfl, hspells⟩
    | cons a as =>
      obtain ⟨d, hd, hfirst⟩ := ih a (.head _) (hargs a (.head _))
      obtain ⟨ds, hds, hlater⟩ := exists_laterTokens fun e he =>
        ih e (.tail _ he) (hargs e (.tail _ he))
      have hend : Spells [.mark .greaterThan] ['>'] := .cons hnone .nil
      have hinner := (hfirst.append hlater).append hend
      refine ⟨.expr ⟨name, isName_iff.1 hname⟩ (d :: ds) [], ?_, ?_⟩
      · rw [meaning, meanings_eq_map, List.map_cons, hd, hds]
        rfl
      · rw [tokens_expr, laterThanName, argumentTokens, List.flatMap_nil, List.append_nil]
        have hargs := Spells.cons (t := .mark .lessThan) hnone hinner
        have hall := Spells.cons (t := .name ⟨name, isName_iff.1 hname⟩) hnone hargs
        simpa [chars, Token.chars, Mark.char] using hall
  | array e ih =>
    obtain ⟨d, hd, hspells⟩ := ih h
    have hbrackets : Spells (Suffix.tokens .array) ['[', ']'] := .cons hnone (.cons hnone .nil)
    refine ⟨d.suffixed .array, ?_, ?_⟩
    · rw [meaning_suffixed, hd]
      rfl
    · rw [tokens_suffixed]
      exact hspells.append hbrackets

end Derivation

/-! ## Round trips -/

/-- What is printed is read back. -/
theorem parse_display {e : TypeExpr} (h : e.wellNamed = true) : parse e.display = .ok e := by
  obtain ⟨d, rfl, hspells⟩ := Derivation.exists_derivation h
  have hderives : d.Derives d.meaning.chars := ⟨d.meaning.chars, [], by simp, hspells, by simp⟩
  rw [parse, display, String.toList_ofList]
  exact parseChars_of_derives hderives

/-- The names in what is read are well formed. -/
theorem wellNamed_of_parse {s : String} {e : TypeExpr} (h : parse s = .ok e) :
    e.wellNamed = true := by
  obtain ⟨d, _, rfl⟩ := exists_of_parseChars h
  exact wellNamed_meaning d

/-- Printing is a canonical form. Expressions with well-formed names are read back from what is
printed, what is read is such an expression, and two texts that are read are the same expression
exactly if they are printed in the same way. -/
theorem display_canonical :
    (∀ e : TypeExpr, (∀ n ∈ e.names, IsQualified n) → parse e.display = .ok e) ∧
      (∀ s e, parse s = .ok e →
        (∀ n ∈ e.names, IsQualified n) ∧ parse e.display = .ok e) ∧
      ∀ s t e f, parse s = .ok e → parse t = .ok f → (e = f ↔ e.display = f.display) := by
  refine ⟨fun e he => ?_, fun s e he => ?_, fun s t e f he hf => ⟨fun h => by rw [h], fun h => ?_⟩⟩
  · exact parse_display ((wellNamed_iff e).2 he)
  · have hwell := wellNamed_of_parse he
    exact ⟨(wellNamed_iff e).1 hwell, parse_display hwell⟩
  · have he' := parse_display (wellNamed_of_parse he)
    have hf' := parse_display (wellNamed_of_parse hf)
    rw [h, hf'] at he'
    exact (Except.ok.inj he').symm

/-- The derivation of `Map<string,bool[]>?`. -/
def optionalMap : Derivation :=
  .expr ⟨"Map", isName_iff.1 (by decide +kernel)⟩
    [.expr ⟨"string", isName_iff.1 (by decide +kernel)⟩ [] [],
      .expr ⟨"bool", isName_iff.1 (by decide +kernel)⟩ [] [.array]] [.nullable]

theorem derives_optionalMap : optionalMap.Derives "Map<string,bool[]>?".toList := by
  have hnone : ∀ c ∈ ([] : List Char), Text.isBlank c = true := by simp
  refine ⟨"Map<string,bool[]>?".toList, [], rfl, ?_, hnone⟩
  exact .cons hnone (.cons hnone (.cons hnone (.cons hnone (.cons hnone (.cons hnone
    (.cons hnone (.cons hnone (.cons hnone .nil))))))))

theorem display_canonical_optionalMap :
    parse "Map<string,bool[]>?" = .ok optionalMap.meaning ∧
      (∀ n ∈ optionalMap.meaning.names, IsQualified n) ∧
      parse "System.Nullable<Map<string, bool[]>>" = .ok optionalMap.meaning := by
  have hread : parse "Map<string,bool[]>?" = .ok optionalMap.meaning :=
    parseChars_of_derives derives_optionalMap
  have hprinted : optionalMap.meaning.display = "System.Nullable<Map<string, bool[]>>" := by decide
  obtain ⟨hnames, hagain⟩ := display_canonical.2.1 _ _ hread
  rw [hprinted] at hagain
  exact ⟨hread, hnames, hagain⟩

end ApiClient.TypeExpr
