import ApiClient.Proofs.References
import ApiClient.Text.Blank

/-!
# Names in type expressions

A name is told from what surrounds it by its characters alone: no character of a name is blank, and
none is a mark of the grammar.

Results:
* `isNameChar_of_isBlank`: no blank belongs to a name.
* `isName_iff`: a name is well formed if it is not empty, has the characters of a name only, and no
  dot stands at its beginning, at its end or before another one.
* `wellNamed_iff`: an expression is well named if every name in it is well formed.
* `dropBlanks_append`, `dropBlanks_of_not_isBlank`: blanks before a character that is none.
-/

namespace ApiClient

namespace Text

/-! ## Blanks -/

/-- The code points of runs with an end. -/
def codePoints : List Nat → List Nat
  | a :: b :: bs => List.range' a (b - a) ++ codePoints bs
  | _ => []

theorem mem_codePoints {bs : List Nat} {n : Nat} (heven : bs.length % 2 = 0)
    (h : inRuns bs n = true) : n ∈ codePoints bs := by
  match bs with
  | [] => simp at h
  | [_] => simp at heven
  | a :: b :: bs =>
    simp only [List.length_cons] at heven
    have hrest : inRuns bs n = true → n ∈ codePoints bs := mem_codePoints (by omega)
    simp only [codePoints, List.mem_append, List.mem_range'_1]
    simp only [inRuns] at h
    split at h
    · simp at h
    · rw [Bool.not_eq_true'] at h
      split at h
      · exact .inl (by omega)
      · exact .inr (hrest (by simpa using h))

/-- Letters and numbers are not blank. -/
theorem isAlphanumeric_of_isBlank {c : Char} (h : isBlank c = true) : isAlphanumeric c = false := by
  have hall : ∀ n ∈ codePoints blankRuns, inRuns alphanumericRuns n = false := by decide +kernel
  exact hall _ (mem_codePoints (by decide) h)

theorem dropBlanks_append {blanks : List Char} (h : ∀ c ∈ blanks, isBlank c = true)
    (cs : List Char) : dropBlanks (blanks ++ cs) = dropBlanks cs :=
  List.dropWhile_append_of_pos h

theorem dropBlanks_of_not_isBlank {c : Char} (h : isBlank c = false) (cs : List Char) :
    dropBlanks (c :: cs) = c :: cs := by
  rw [dropBlanks, List.dropWhile_cons_of_neg (by simp [h])]

/-- A text is its leading blanks and what remains without them. -/
theorem exists_dropBlanks (cs : List Char) :
    ∃ blanks, (∀ c ∈ blanks, isBlank c = true) ∧ cs = blanks ++ dropBlanks cs :=
  ⟨cs.takeWhile isBlank, fun _ h => List.all_eq_true.1 List.all_takeWhile _ h,
    List.takeWhile_append_dropWhile.symm⟩

end Text

namespace TypeExpr

open Text

/-! ## Characters of names -/

theorem isNameChar_of_isBlank {c : Char} (h : isBlank c = true) : isNameChar c = false := by
  have hmarks : ['_', '.', '\u0060', '+'].all (fun m => !isBlank m) = true := by decide
  have hne : c ∉ ['_', '.', '\u0060', '+'] := by
    intro hc
    have hmark := List.all_eq_true.1 hmarks c hc
    rw [h] at hmark
    contradiction
  simp only [List.mem_cons, List.not_mem_nil, or_false, not_or] at hne
  simp [isNameChar, isAlphanumeric_of_isBlank h, hne]

theorem not_isBlank_of_isNameChar {c : Char} (h : isNameChar c = true) : isBlank c = false := by
  cases hblank : isBlank c with
  | false => rfl
  | true => rw [isNameChar_of_isBlank hblank] at h; contradiction

/-! ## Well-formed names -/

theorem tail_splitOn_cons {sep c : Char} (h : c ≠ sep) (cs : List Char) :
    (splitOn sep (c :: cs)).tail = (splitOn sep cs).tail := by
  obtain ⟨s, ss, hs⟩ := List.exists_cons_of_ne_nil (splitOn_ne_nil sep cs)
  rw [splitOn, if_neg h, hs]
  rfl

/-- No segment is empty iff the first one is not and the others are not. -/
theorem all_splitOn (cs : List Char) :
    (splitOn '.' cs).all (!·.isEmpty) = true ↔
      cs ≠ [] ∧ cs.head? ≠ some '.' ∧ (splitOn '.' cs).tail.all (!·.isEmpty) = true := by
  cases cs with
  | nil => simp [splitOn]
  | cons c cs =>
    by_cases hc : c = '.'
    · simp [splitOn, hc]
    · obtain ⟨s, ss, hs⟩ := List.exists_cons_of_ne_nil (splitOn_ne_nil '.' cs)
      simp [splitOn, hs, hc]

/-- The segments after the first one are not empty iff no dot ends the text or meets another. -/
theorem all_tail_splitOn (cs : List Char) :
    (splitOn '.' cs).tail.all (!·.isEmpty) = true ↔
      cs.getLast? ≠ some '.' ∧ ¬ ['.', '.'] <:+: cs := by
  induction cs with
  | nil => simp [splitOn]
  | cons c cs ih =>
    rw [List.infix_cons_iff]
    by_cases hc : c = '.'
    · rw [splitOn, if_pos hc, List.tail_cons, all_splitOn, ih, hc]
      cases cs with
      | nil => simp
      | cons d ds => simp [List.getLast?_cons_cons, List.cons_prefix_cons, and_left_comm, eq_comm]
    · rw [tail_splitOn_cons hc, ih]
      cases cs with
      | nil => simp [hc]
      | cons d ds => simp [List.getLast?_cons_cons, List.cons_prefix_cons, Ne.symm hc]

/-- A well-formed qualified name. -/
structure IsQualified (s : String) : Prop where
  nonempty : s ≠ ""
  chars : ∀ c ∈ s.toList, isNameChar c = true
  leading : s.toList.head? ≠ some '.'
  trailing : s.toList.getLast? ≠ some '.'
  doubled : ¬ ['.', '.'] <:+: s.toList

theorem isName_iff {s : String} : isName s = true ↔ IsQualified s := by
  have hempty : s.toList ≠ [] ↔ s ≠ "" := by simp
  rw [isName, Bool.and_eq_true, hasSegments, all_splitOn, all_tail_splitOn, List.all_eq_true,
    hempty]
  constructor
  · rintro ⟨hchars, hnonempty, hleading, htrailing, hdoubled⟩
    exact ⟨hnonempty, hchars, hleading, htrailing, hdoubled⟩
  · rintro ⟨hnonempty, hchars, hleading, htrailing, hdoubled⟩
    exact ⟨hchars, hnonempty, hleading, htrailing, hdoubled⟩

/-- A well-formed name begins with a character of names. -/
theorem IsQualified.exists_cons {s : String} (h : IsQualified s) :
    ∃ c cs, s.toList = c :: cs ∧ isNameChar c = true := by
  obtain ⟨c, cs, hs⟩ := List.exists_cons_of_ne_nil (mt String.toList_eq_nil_iff.1 h.nonempty)
  exact ⟨c, cs, hs, h.chars c (hs ▸ .head _)⟩

/-! ## Well-formed expressions -/

mutual
/-- The names in an expression. -/
def names : TypeExpr → List String
  | .named name args => name :: namesAll args
  | .array element => names element
/-- The names in several expressions. -/
def namesAll : List TypeExpr → List String
  | [] => []
  | e :: es => names e ++ namesAll es
end

@[simp] theorem namesAll_eq_flatMap (es : List TypeExpr) : namesAll es = es.flatMap names := by
  induction es with
  | nil => rfl
  | cons e es ih => rw [namesAll, ih, List.flatMap_cons]

theorem allWellNamed_iff {es : List TypeExpr} :
    allWellNamed es = true ↔ ∀ e ∈ es, e.wellNamed = true := by
  induction es with
  | nil => simp [allWellNamed]
  | cons e es ih => simp [allWellNamed, ih]

theorem wellNamed_named {name : String} {args : List TypeExpr} :
    (named name args).wellNamed = true ↔
      isName name = true ∧ ∀ e ∈ args, e.wellNamed = true := by
  rw [wellNamed, Bool.and_eq_true, allWellNamed_iff]

/-- The check of an expression covers every name in it. -/
theorem wellNamed_iff (e : TypeExpr) : e.wellNamed = true ↔ ∀ n ∈ e.names, IsQualified n := by
  induction e using TypeExpr.induction with
  | named name args ih =>
    rw [wellNamed_named, isName_iff, names, namesAll_eq_flatMap, List.forall_mem_cons]
    refine and_congr_right' ⟨fun h n hn => ?_, fun h e he => (ih e he).2 fun n hn => ?_⟩
    · obtain ⟨e, he, hn⟩ := List.mem_flatMap.1 hn
      exact (ih e he).1 (h e he) n hn
    · exact h n (List.mem_flatMap.2 ⟨e, he, hn⟩)
  | array e ih => exact ih

end TypeExpr

end ApiClient
