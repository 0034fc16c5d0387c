import ApiClient.TypeScript.Url
import Mathlib.Data.List.DropRight

/-!
# Slashes between the parts of an address

An address is made of parts that may begin and end with slashes. The characters that are no slashes
stay, in their order. So the number of slashes between two parts is told by the address alone: they
stand behind as many other characters as the parts up to the first of the two have.

Results:
* `HasGap`: a text has a number of slashes between the characters of two others;
  `HasGap.unique`: it has one such number.
* `separates_combineUri`: behind a part stand the slashes at its end, or one if it has none there.
* `separatesOnce_iff`: all parts have one slash between them exactly if no part that another one
  follows ends in more than one.
* `not_separatesOnce_widget`: some parts have more than one between them.
-/

namespace ApiClient.TypeScript

open Text

/-! ## Specification -/

/-- The characters of a text that are no slashes. -/
def letters (cs : List Char) : List Char :=
  cs.filter (· != '/')

/-- The letters of several texts, one after the other. -/
def lettersOf (parts : List String) : List Char :=
  parts.flatMap fun part => letters part.toList

/-- The part is more than slashes. -/
def HasLetters (part : String) : Prop :=
  letters part.toList ≠ []

instance (part : String) : Decidable (HasLetters part) :=
  inferInstanceAs (Decidable (letters part.toList ≠ []))

/-- The number of slashes at the end of a text. -/
def slashesAtEnd (cs : List Char) : Nat :=
  (cs.rtakeWhile (· == '/')).length

/-- Exactly `n` slashes stand between the letters `first` and the letters `second` of a text, which
has no others. -/
def HasGap (first second : List Char) (n : Nat) (text : List Char) : Prop :=
  ∃ left right, text = left ++ List.replicate n '/' ++ right ∧
    letters left = first ∧ letters right = second ∧
    left.getLast? ≠ some '/' ∧ right.head? ≠ some '/'

/-- Between any two parts that follow each other and are more than slashes, the text has as many
slashes as `count` tells of the first one. -/
def Separates (count : String → Nat) (parts : List String) (text : String) : Prop :=
  ∀ before p q after, parts = before ++ p :: q :: after → HasLetters p → HasLetters q →
    HasGap (lettersOf (before ++ [p])) (lettersOf (q :: after)) (count p) text.toList

/-- Between any two such parts the text has exactly one slash. -/
def SeparatesOnce (parts : List String) (text : String) : Prop :=
  Separates (fun _ => 1) parts text

/-- The slashes at the end of a part, or one if there are none. -/
def slashesBehind (part : String) : Nat :=
  max 1 (slashesAtEnd part.toList)

/-! ## Letters -/

variable {cs ds : List Char}

@[simp] theorem letters_append (cs ds : List Char) :
    letters (cs ++ ds) = letters cs ++ letters ds :=
  List.filter_append ..

theorem letters_eq_nil_iff : letters cs = [] ↔ ∀ c ∈ cs, c = '/' := by
  simp [letters]

@[simp] theorem letters_replicate (n : Nat) : letters (List.replicate n '/') = [] :=
  letters_eq_nil_iff.2 fun _ => List.eq_of_mem_replicate

@[simp] theorem letters_dropWhile (cs : List Char) :
    letters (cs.dropWhile (· == '/')) = letters cs := by
  have hslashes : letters (cs.takeWhile (· == '/')) = [] :=
    letters_eq_nil_iff.2 fun c hc => eq_of_beq (List.mem_takeWhile_imp (p := (· == '/')) hc)
  conv_rhs => rw [← List.takeWhile_append_dropWhile (p := (· == '/')) (l := cs), letters_append,
    hslashes, List.nil_append]

/-! ## Slashes at the beginning and at the end -/

theorem head?_dropWhile (cs : List Char) : (cs.dropWhile (· == '/')).head? ≠ some '/' := by
  intro h
  have hnot := List.head?_dropWhile_not (· == '/') cs
  rw [h] at hnot
  simp at hnot

/-- A text is what remains without the slashes at its end, and these slashes. -/
theorem dropEnd_append_replicate (cs : List Char) :
    dropEnd '/' cs ++ List.replicate (slashesAtEnd cs) '/' = cs := by
  have hslashes : cs.rtakeWhile (· == '/') = List.replicate (slashesAtEnd cs) '/' :=
    List.eq_replicate_iff.2
      ⟨rfl, fun c hc => eq_of_beq (List.mem_rtakeWhile_imp (p := (· == '/')) hc)⟩
  rw [← hslashes]
  exact List.rdropWhile_append_rtakeWhile

theorem getLast?_dropEnd (cs : List Char) : (dropEnd '/' cs).getLast? ≠ some '/' := by
  rw [dropEnd, List.getLast?_reverse]
  exact head?_dropWhile _

@[simp] theorem letters_dropEnd (cs : List Char) : letters (dropEnd '/' cs) = letters cs := by
  conv_rhs => rw [← dropEnd_append_replicate cs, letters_append, letters_replicate,
    List.append_nil]

/-- What stands before a letter does not count. -/
theorem slashesAtEnd_append (h : letters ds ≠ []) (cs : List Char) :
    slashesAtEnd (cs ++ ds) = slashesAtEnd ds := by
  have hstops : ds.reverse.takeWhile (· == '/') ≠ ds.reverse := by
    intro hall
    refine h (letters_eq_nil_iff.2 fun c hc => ?_)
    exact eq_of_beq (List.takeWhile_eq_self_iff.1 hall c (List.mem_reverse.2 hc))
  rw [slashesAtEnd, slashesAtEnd, List.rtakeWhile, List.reverse_append, List.takeWhile_append,
    if_neg, List.rtakeWhile]
  intro hlength
  exact hstops ((List.takeWhile_prefix _).eq_of_length hlength)

theorem slashesAtEnd_dropWhile (h : letters cs ≠ []) :
    slashesAtEnd (cs.dropWhile (· == '/')) = slashesAtEnd cs := by
  rw [← slashesAtEnd_append (by rwa [letters_dropWhile]) (cs.takeWhile (· == '/')),
    List.takeWhile_append_dropWhile]

theorem slashesAtEnd_eq_zero_iff : slashesAtEnd cs = 0 ↔ cs.getLast? ≠ some '/' := by
  rw [slashesAtEnd, List.length_eq_zero_iff, List.rtakeWhile, List.reverse_eq_nil_iff,
    ← List.head?_reverse]
  cases cs.reverse with
  | nil => simp
  | cons c cs => by_cases hc : c = '/' <;> simp [hc]

/-! ## Gaps -/

/-- A beginning of a text that ends in a letter is told by its letters. -/
theorem eq_of_letters_eq {left left' right right' : List Char}
    (h : left ++ right = left' ++ right') (hletters : letters left = letters left')
    (hlast : left.getLast? ≠ some '/') (hlast' : left'.getLast? ≠ some '/') : left = left' := by
  have hshorter : ∀ {a b m : List Char}, b = a ++ m → letters a = letters b →
      b.getLast? ≠ some '/' → a = b := by
    rintro a _ m rfl hab hb
    rw [letters_append, List.self_eq_append_right] at hab
    cases hm : m.getLast? with
    | none => rw [List.getLast?_eq_none_iff.1 hm, List.append_nil]
    | some c =>
      obtain rfl := letters_eq_nil_iff.1 hab c (List.mem_of_getLast? hm)
      exact absurd (by rw [List.getLast?_append, hm]; rfl) hb
  rcases List.append_eq_append_iff.1 h with ⟨m, hm, _⟩ | ⟨m, hm, _⟩
  · exact hshorter hm hletters hlast'
  · exact (hshorter hm hletters.symm hlast).symm

/-- A text has one number of slashes between the letters of two others. -/
theorem HasGap.unique {first second text : List Char} {m n : Nat} (h : HasGap first second m text)
    (h' : HasGap first second n text) : m = n := by
  obtain ⟨left, right, rfl, hleft, _, hlast, hhead⟩ := h
  obtain ⟨left', right', htext, hleft', _, hlast', hhead'⟩ := h'
  rw [List.append_assoc, List.append_assoc] at htext
  obtain rfl := eq_of_letters_eq htext (hleft.trans hleft'.symm) hlast hlast'
  have hslashes : ∀ {k : Nat} {r : List Char}, r.head? ≠ some '/' →
      ((List.replicate k '/' ++ r).takeWhile (· == '/')).length = k := by
    intro k r hr
    rw [List.takeWhile_append_of_pos fun c hc => beq_iff_eq.2 (List.eq_of_mem_replicate hc)]
    cases r with
    | nil => simp
    | cons c cs => simp_all
  rw [← hslashes (k := m) hhead, List.append_cancel_left htext, hslashes hhead']

/-! ## Parts one after the other -/

/-- A slash is added if the text does not end in one. -/
theorem toList_appendPart (uri part : String) :
    (appendPart uri part).toList =
      uri.toList ++ List.replicate (1 - slashesAtEnd uri.toList) '/' ++
        part.toList.dropWhile (· == '/') := by
  rw [appendPart, String.toList_append, String.toList_ofList]
  congr 1
  split
  · rename_i hslash
    have hpos : slashesAtEnd uri.toList ≠ 0 := fun h => slashesAtEnd_eq_zero_iff.1 h hslash
    rw [Nat.sub_eq_zero_of_le (Nat.one_le_iff_ne_zero.2 hpos), List.replicate_zero, List.append_nil]
  · rename_i hnone
    rw [slashesAtEnd_eq_zero_iff.2 hnone, String.toList_append]
    rfl

/-- What is added later goes behind the text. -/
theorem exists_foldl_appendPart (parts : List String) (uri : String) :
    ∃ later, (parts.foldl appendPart uri).toList = uri.toList ++ later ∧
      letters later = lettersOf parts := by
  induction parts generalizing uri with
  | nil => exact ⟨[], (List.append_nil _).symm, rfl⟩
  | cons part parts ih =>
    obtain ⟨later, htext, hlater⟩ := ih (appendPart uri part)
    rw [toList_appendPart, List.append_assoc, List.append_assoc] at htext
    refine ⟨_, htext, ?_⟩
    simp [lettersOf, hlater]

theorem letters_combineUri (parts : List String) :
    letters (combineUri parts).toList = lettersOf parts := by
  cases parts with
  | nil => rfl
  | cons first parts =>
    obtain ⟨later, htext, hlater⟩ := exists_foldl_appendPart parts first
    rw [combineUri, htext, letters_append, hlater, lettersOf, lettersOf, List.flatMap_cons]

theorem combineUri_append {before : List String} (h : before ≠ []) (after : List String) :
    combineUri (before ++ after) = after.foldl appendPart (combineUri before) := by
  cases before with
  | nil => contradiction
  | cons first before => rw [List.cons_append, combineUri, combineUri, List.foldl_append]

/-- The parts up to one that is more than slashes end as this one does. -/
theorem slashesAtEnd_combineUri {p : String} (h : HasLetters p) (before : List String) :
    slashesAtEnd (combineUri (before ++ [p])).toList = slashesAtEnd p.toList := by
  cases before with
  | nil => rfl
  | cons first before =>
    rw [combineUri_append (List.cons_ne_nil _ _), List.foldl_cons, List.foldl_nil,
      toList_appendPart, slashesAtEnd_append (by rwa [letters_dropWhile]), slashesAtEnd_dropWhile h]

/-! ## Gaps in addresses -/

/-- Between two parts that follow each other stand the slashes at the end of the first one, or one
slash if there are none. -/
theorem separates_combineUri (parts : List String) :
    Separates slashesBehind parts (combineUri parts) := by
  rintro before p q after rfl hp hq
  let uri := combineUri (before ++ [p])
  have hparts : before ++ p :: q :: after = (before ++ [p]) ++ q :: after := by simp
  have hend : slashesAtEnd uri.toList = slashesAtEnd p.toList := slashesAtEnd_combineUri hp before
  have huri := dropEnd_append_replicate uri.toList
  obtain ⟨later, htext, hlater⟩ := exists_foldl_appendPart after (appendPart uri q)
  refine ⟨dropEnd '/' uri.toList, q.toList.dropWhile (· == '/') ++ later, ?_, ?_, ?_,
    getLast?_dropEnd _, ?_⟩
  · have hslashes : slashesBehind p =
        slashesAtEnd uri.toList + (1 - slashesAtEnd uri.toList) := by
      rw [slashesBehind, ← hend]
      omega
    rw [hparts, combineUri_append (by simp), List.foldl_cons, htext, toList_appendPart, hslashes,
      List.replicate_add, ← List.append_assoc, ← List.append_assoc, huri]
  · rw [letters_dropEnd, letters_combineUri]
  · rw [letters_append, letters_dropWhile, hlater, lettersOf, lettersOf, List.flatMap_cons]
  · have hhead := head?_dropWhile q.toList
    cases hdrop : q.toList.dropWhile (· == '/') with
    | nil =>
      have hnone := letters_dropWhile q.toList
      rw [hdrop] at hnone
      exact absurd hnone.symm hq
    | cons c cs =>
      rw [hdrop] at hhead
      exact hhead

/-- Behind each part stand the slashes at its end, or one if there are none. So all parts that are
more than slashes have exactly one slash between them if and only if none of them that another one
follows ends in more than one. -/
theorem separatesOnce_iff (parts : List String) :
    Separates slashesBehind parts (combineUri parts) ∧
    (SeparatesOnce parts (combineUri parts) ↔
      ∀ before p q after, parts = before ++ p :: q :: after → HasLetters p → HasLetters q →
        slashesAtEnd p.toList ≤ 1) := by
  have hall := separates_combineUri parts
  refine ⟨hall, ?_, ?_⟩
  · intro h before p q after hparts hp hq
    have hone : 1 = slashesBehind p :=
      (h _ _ _ _ hparts hp hq).unique (hall _ _ _ _ hparts hp hq)
    rw [slashesBehind] at hone
    omega
  · intro h before p q after hparts hp hq
    have hone : slashesBehind p = 1 := max_eq_left (h _ _ _ _ hparts hp hq)
    exact hone ▸ hall _ _ _ _ hparts hp hq

/-- A part that ends in two slashes has both before the next one. -/
theorem not_separatesOnce_widget :
    ¬ SeparatesOnce ["api//", "Widget"] (combineUri ["api//", "Widget"]) := by
  intro h
  have hapi : HasLetters "api//" := by decide
  have hwidget : HasLetters "Widget" := by decide
  have hone := h [] _ _ [] rfl hapi hwidget
  have htwo := separates_combineUri ["api//", "Widget"] [] _ _ [] rfl hapi hwidget
  exact absurd (hone.unique htwo) (by decide)

end ApiClient.TypeScript
