import ApiClient.FilePattern
import Mathlib.Data.List.Forall2

/-!
# Names that file patterns cover

A pattern covers a name if the name can be split among the characters of the pattern. With several
stars there are many splits to try, and `FilePattern.run` tries them at once: it keeps the rests of
the pattern that are still to be matched, one of each length.

Results:
* `Fits`: what it means for a name to be split among the characters of a pattern.
* `nil_mem_run_iff`: a list of rests is run through as each of its rests is.
* `matchChars_iff`: the pattern takes a whole text exactly if the text fits.
* `read_expression`, `found_iff`: a pattern written as a regular expression means the same.
* `parse_covers_iff`: which patterns are read and which names they cover.
-/

namespace ApiClient

namespace FilePattern

/-! ## Specification -/

/-- What a character of a pattern takes from a name. -/
inductive Takes : Char → List Char → Prop
  | star {run : List Char} (h : '\n' ∉ run) : Takes '*' run
  | any {c : Char} (h : c ≠ '\n') : Takes '?' [c]
  | same {p c : Char} (hp : p ≠ '*' ∧ p ≠ '?') (h : Text.fold p = Text.fold c) : Takes p [c]

/-- A text is split among the characters of a pattern. -/
def Fits (pattern text : List Char) : Prop :=
  ∃ runs, List.Forall₂ Takes pattern runs ∧ runs.flatten = text

/-! ## Splits -/

variable {p c : Char} {ps text : List Char}

theorem takes_star_iff : Takes '*' text ↔ '\n' ∉ text := by
  constructor
  · rintro (h | h | ⟨⟨hstar, _⟩, _⟩)
    · exact h
    · exact absurd rfl hstar
  · exact .star

/-- A character other than a star takes one character. -/
theorem takes_iff (hp : p ≠ '*') : Takes p text ↔
    ∃ c, text = [c] ∧ if p = '?' then c ≠ '\n' else Text.sameFolded p c = true := by
  constructor
  · rintro (h | h | ⟨⟨_, hquestion⟩, h⟩)
    · exact absurd rfl hp
    · exact ⟨_, rfl, h⟩
    · exact ⟨_, rfl, by rw [if_neg hquestion, Text.sameFolded, h, beq_self_eq_true]⟩
  · rintro ⟨c, rfl, h⟩
    split at h
    · rename_i hquestion
      exact hquestion ▸ .any h
    · rename_i hquestion
      exact .same ⟨hp, hquestion⟩ (eq_of_beq h)

theorem fits_nil : Fits [] text ↔ text = [] := by
  simp [Fits, eq_comm]

theorem fits_cons : Fits (p :: ps) text ↔
    ∃ run rest, text = run ++ rest ∧ Takes p run ∧ Fits ps rest := by
  constructor
  · rintro ⟨_, hruns, rfl⟩
    obtain ⟨run, runs, hrun, hrest, rfl⟩ := List.forall₂_cons_left_iff.1 hruns
    exact ⟨run, runs.flatten, rfl, hrun, runs, hrest, rfl⟩
  · rintro ⟨run, _, rfl, hrun, runs, hrest, rfl⟩
    exact ⟨run :: runs, .cons hrun hrest, rfl⟩

/-- A star takes nothing, or the first character and then what is left for it. -/
theorem fits_star_cons : Fits ('*' :: ps) (c :: text) ↔
    c ≠ '\n' ∧ Fits ('*' :: ps) text ∨ Fits ps (c :: text) := by
  simp only [fits_cons, takes_star_iff]
  constructor
  · rintro ⟨run, rest, htext, hrun, hrest⟩
    cases run with
    | nil => exact .inr (htext ▸ hrest)
    | cons d run =>
      obtain ⟨rfl, rfl⟩ := List.cons.inj htext
      rw [List.mem_cons, not_or] at hrun
      exact .inl ⟨Ne.symm hrun.1, run, rest, rfl, hrun.2, hrest⟩
  · rintro (⟨hc, run, rest, rfl, hrun, hrest⟩ | hrest)
    · refine ⟨c :: run, rest, rfl, ?_, hrest⟩
      rw [List.mem_cons, not_or]
      exact ⟨Ne.symm hc, hrun⟩
    · exact ⟨[], c :: text, rfl, List.not_mem_nil, hrest⟩

theorem fits_star_nil : Fits ('*' :: ps) [] ↔ Fits ps [] := by
  rw [fits_cons]
  constructor
  · rintro ⟨run, rest, htext, _, hrest⟩
    obtain ⟨_, rfl⟩ := List.append_eq_nil_iff.1 htext.symm
    exact hrest
  · exact fun h => ⟨[], [], rfl, .star List.not_mem_nil, h⟩

/-- Any other character takes the first one. -/
theorem fits_cons_cons (hp : p ≠ '*') : Fits (p :: ps) (c :: text) ↔
    (if p = '?' then c ≠ '\n' else Text.sameFolded p c = true) ∧ Fits ps text := by
  simp only [fits_cons, takes_iff hp]
  constructor
  · rintro ⟨_, rest, htext, ⟨d, rfl, hd⟩, hrest⟩
    obtain ⟨rfl, rfl⟩ := List.cons.inj htext
    exact ⟨hd, hrest⟩
  · rintro ⟨hc, hrest⟩
    exact ⟨[c], text, rfl, ⟨c, rfl, hc⟩, hrest⟩

theorem not_fits_cons_nil (hp : p ≠ '*') : ¬ Fits (p :: ps) [] := by
  simp only [fits_cons, takes_iff hp]
  rintro ⟨_, rest, htext, ⟨d, rfl, _⟩, _⟩
  cases htext

/-! ## One step -/

theorem nil_mem_starts_iff : [] ∈ starts ps ↔ Fits ps [] := by
  induction ps with
  | nil => simp [starts, fits_nil]
  | cons p ps ih =>
    rw [starts]
    by_cases hp : p = '*'
    · subst hp
      simp [fits_star_nil, ih]
    · simp [hp, not_fits_cons_nil hp]

theorem suffix_of_mem_starts {r : List Char} (h : r ∈ starts ps) : r <:+ ps := by
  induction ps with
  | nil => simp_all [starts]
  | cons p ps ih =>
    rw [starts] at h
    split at h
    · rcases List.mem_cons.1 h with rfl | h
      · exact List.suffix_rfl
      · exact (ih h).trans (List.suffix_cons p ps)
    · obtain rfl := List.mem_singleton.1 h
      exact List.suffix_rfl

theorem mem_step_star {r : List Char} :
    r ∈ step c ('*' :: ps) ↔ c ≠ '\n' ∧ r ∈ starts ('*' :: ps) := by
  simp [step]

theorem mem_step_cons (hp : p ≠ '*') {r : List Char} : r ∈ step c (p :: ps) ↔
    (if p = '?' then c ≠ '\n' else Text.sameFolded p c = true) ∧ r ∈ starts ps := by
  rw [step, if_neg hp]
  by_cases htakes : if p = '?' then c ≠ '\n' else Text.sameFolded p c = true
  · simp [htakes]
  · simp [htakes]

theorem suffix_of_mem_step {r : List Char} (h : r ∈ step c ps) : r <:+ ps := by
  cases ps with
  | nil => cases h
  | cons p ps =>
    by_cases hp : p = '*'
    · subst hp
      exact suffix_of_mem_starts (mem_step_star.1 h).2
    · exact (suffix_of_mem_starts ((mem_step_cons hp).1 h).2).trans (List.suffix_cons p ps)

/-- If the rests of every pattern tell whether it fits a text, those after a step tell whether it
fits the text with one more character. -/
theorem exists_mem_step_iff {P : List Char → Prop}
    (hP : ∀ qs, (∃ r ∈ starts qs, P r) ↔ Fits qs text) (ps : List Char) :
    (∃ r ∈ starts ps, ∃ r' ∈ step c r, P r') ↔ Fits ps (c :: text) := by
  induction ps with
  | nil => simp [starts, step, fits_nil]
  | cons p ps ih =>
    rw [starts]
    by_cases hp : p = '*'
    · subst hp
      have hstarts : (∃ r ∈ ('*' :: ps) :: starts ps, ∃ r' ∈ step c r, P r') ↔
          (∃ r' ∈ step c ('*' :: ps), P r') ∨ ∃ r ∈ starts ps, ∃ r' ∈ step c r, P r' := by
        simp
      rw [if_pos rfl, hstarts, ih, fits_star_cons, ← hP]
      simp only [mem_step_star, and_assoc, exists_and_left]
    · rw [if_neg hp, fits_cons_cons hp, ← hP]
      simp only [List.mem_singleton, exists_eq_left, mem_step_cons hp, and_assoc, exists_and_left]

/-! ## Whole texts -/

theorem run_cons (rests : List (List Char)) : run rests (c :: text) =
    run (distinctBy List.length [] (rests.flatMap (step c))) text :=
  rfl

/-- Rests of one pattern that differ differ in length, so none is lost. -/
theorem mem_distinctBy_length {rests : List (List Char)} (h : ∀ r ∈ rests, r <:+ ps)
    {r : List Char} : r ∈ distinctBy List.length [] rests ↔ r ∈ rests := by
  constructor
  · intro hr
    exact (mem_distinctBy hr).1
  · intro hr
    have hkept : ∃ r' ∈ distinctBy List.length [] rests, r'.length = r.length :=
      exists_mem_distinctBy hr List.not_mem_nil
    obtain ⟨r', hr', hlength⟩ := hkept
    have hsuffix := h r' (mem_distinctBy hr').1
    obtain rfl : r' = r := List.IsSuffix.eq_of_length
      (List.suffix_of_suffix_length_le hsuffix (h r hr) (Nat.le_of_eq hlength)) hlength
    exact hr'

/-- If lists of rests are run through a text as each of their rests is, they are so with one more
character. -/
theorem nil_mem_run_cons_iff (hrun : ∀ rests : List (List Char), (∀ r ∈ rests, r <:+ ps) →
      ([] ∈ run rests text ↔ ∃ r ∈ rests, [] ∈ run [r] text))
    {rests : List (List Char)} (h : ∀ r ∈ rests, r <:+ ps) :
    [] ∈ run rests (c :: text) ↔ ∃ r ∈ rests, ∃ r' ∈ step c r, [] ∈ run [r'] text := by
  have hsuffix : ∀ r ∈ rests.flatMap (step c), r <:+ ps := by
    intro r hr
    obtain ⟨q, hq, hr⟩ := List.mem_flatMap.1 hr
    exact (suffix_of_mem_step hr).trans (h q hq)
  -- All rests are ends of one pattern, so of those of one length none is lost.
  rw [run_cons, hrun _ fun r hr => hsuffix r ((mem_distinctBy_length hsuffix).1 hr)]
  simp only [mem_distinctBy_length hsuffix, List.mem_flatMap]
  constructor
  · rintro ⟨r', ⟨r, hr, hr'⟩, hend⟩
    exact ⟨r, hr, r', hr', hend⟩
  · rintro ⟨r, hr, r', hr', hend⟩
    exact ⟨r', ⟨r, hr, hr'⟩, hend⟩

/-- A list of rests is run through as each of its rests is. -/
theorem nil_mem_run_iff (text : List Char) (rests : List (List Char)) (h : ∀ r ∈ rests, r <:+ ps) :
    [] ∈ run rests text ↔ ∃ r ∈ rests, [] ∈ run [r] text := by
  induction text generalizing rests with
  | nil => simp [run]
  | cons c text ih =>
    rw [nil_mem_run_cons_iff ih h]
    -- A list of one rest is stepped in the same way.
    refine exists_congr fun r => and_congr_right fun hr => ?_
    rw [nil_mem_run_cons_iff ih (by simpa using h r hr)]
    simp

/-- The pattern takes a whole text exactly if the text fits. -/
theorem nil_mem_run_starts_iff : [] ∈ run (starts ps) text ↔ Fits ps text := by
  induction text generalizing ps with
  | nil => exact nil_mem_starts_iff
  | cons c text ih =>
    rw [nil_mem_run_cons_iff (nil_mem_run_iff text) fun r => suffix_of_mem_starts]
    refine exists_mem_step_iff (fun qs => ?_) ps
    rw [← nil_mem_run_iff text _ fun r => suffix_of_mem_starts, ih]

theorem matchChars_iff : matchChars ps text = true ↔ Fits ps text := by
  rw [← nil_mem_run_starts_iff, matchChars, List.any_eq_true]
  simp

end FilePattern

/-! ## Regular expressions -/

namespace Expression

/-- A part of a regular expression. -/
inductive Part where
  | start
  | finish
  | any
  | anyRun
  | letter (c : Char)
  deriving DecidableEq, Repr

/-- A part takes a run between two texts. Letters are compared up to case. -/
inductive Part.Takes : Part → List Char → List Char → List Char → Prop
  | start {after : List Char} : Takes .start [] [] after
  | finish {before : List Char} : Takes .finish before [] []
  | any {before after : List Char} {c : Char} (h : c ≠ '\n') : Takes .any before [c] after
  | anyRun {before run after : List Char} (h : '\n' ∉ run) : Takes .anyRun before run after
  | letter {before after : List Char} {p c : Char} (h : Text.fold p = Text.fold c) :
    Takes (.letter p) before [c] after

/-- Parts take a text between two others, one after another. -/
inductive Takes : List Part → List Char → List Char → List Char → Prop
  | nil {before after : List Char} : Takes [] before [] after
  | cons {part : Part} {parts : List Part} {before run text after : List Char}
    (h : part.Takes before run (text ++ after)) (hrest : Takes parts (before ++ run) text after) :
    Takes (part :: parts) before (run ++ text) after

/-- An expression is found somewhere in a text. -/
def Found (parts : List Part) (text : List Char) : Prop :=
  ∃ before found after, text = before ++ found ++ after ∧ Takes parts before found after

/-- The characters that are written after a backslash to stand for themselves. -/
def isMeta (c : Char) : Bool :=
  ['\\', '.', '+', '*', '?', '(', ')', '|', '[', ']', '\x7b', '\x7d', '^', '$', '#', '&', '-',
    '~'].contains c

/-- Reads the parts of an expression; there are none if it has other kinds of them. -/
def readParts : List Char → Option (List Part)
  | [] => some []
  | '^' :: cs => (readParts cs).map (.start :: ·)
  | '$' :: cs => (readParts cs).map (.finish :: ·)
  | '.' :: '*' :: cs => (readParts cs).map (.anyRun :: ·)
  | '.' :: cs => (readParts cs).map (.any :: ·)
  | '\\' :: c :: cs => if isMeta c then (readParts cs).map (.letter c :: ·) else none
  | c :: cs => if isMeta c then none else (readParts cs).map (.letter c :: ·)

/-- Reads an expression that compares letters up to case. -/
def read (cs : List Char) : Option (List Part) :=
  (Text.dropPrefix? "(?i)".toList cs).bind readParts

/-! ### Ends -/

variable {before run after text : List Char} {parts : List Part}

theorem takes_start_iff : Part.start.Takes before run after ↔ before = [] ∧ run = [] := by
  constructor
  · intro h
    cases h
    exact ⟨rfl, rfl⟩
  · rintro ⟨rfl, rfl⟩
    exact .start

theorem takes_finish_iff : Part.finish.Takes before run after ↔ run = [] ∧ after = [] := by
  constructor
  · intro h
    cases h
    exact ⟨rfl, rfl⟩
  · rintro ⟨rfl, rfl⟩
    exact .finish

theorem takes_nil_iff : Takes [] before text after ↔ text = [] := by
  constructor
  · intro h
    cases h
    rfl
  · rintro rfl
    exact .nil

theorem takes_cons_iff {part : Part} : Takes (part :: parts) before text after ↔
    ∃ run rest, text = run ++ rest ∧ part.Takes before run (rest ++ after) ∧
      Takes parts (before ++ run) rest after := by
  constructor
  · intro h
    cases h with
    | cons h hrest => exact ⟨_, _, rfl, h, hrest⟩
  · rintro ⟨run, rest, rfl, h, hrest⟩
    exact .cons h hrest

end Expression

namespace FilePattern

open Expression

/-- How a character of a pattern is written in an expression. -/
def written (c : Char) : List Char :=
  if c = '*' then ['.', '*'] else if c = '?' then ['.'] else if isMeta c then ['\\', c] else [c]

/-- The pattern as a regular expression for whole names. -/
def expression (pattern : List Char) : List Char :=
  "(?i)^".toList ++ pattern.flatMap written ++ "$".toList

/-- What a character of a pattern stands for. -/
def part (c : Char) : Part :=
  if c = '*' then .anyRun else if c = '?' then .any else .letter c

variable {p c : Char} {ps text : List Char}

/-- A character that is no letter by itself is one after a backslash. -/
theorem readParts_escaped (h : isMeta c = true) :
    readParts ('\\' :: c :: text) = (readParts text).map (.letter c :: ·) := by
  rw [readParts, if_pos h]

theorem readParts_letter (h : isMeta c = false) :
    readParts (c :: text) = (readParts text).map (.letter c :: ·) := by
  rw [readParts]
  · rw [h]
    rfl
  all_goals
    intros
    subst_vars
    exact absurd h (by decide)

theorem readParts_any (h : text.head? ≠ some '*') :
    readParts ('.' :: text) = (readParts text).map (.any :: ·) := by
  rw [readParts]
  rintro cs rfl
  exact h rfl

/-- No star follows what is written for a pattern, so none is taken for a repetition. -/
theorem head?_flatMap_written (ps : List Char) :
    (ps.flatMap written ++ ['$']).head? ≠ some '*' := by
  cases ps with
  | nil => decide
  | cons p ps =>
    rw [List.flatMap_cons, written]
    split
    · simp
    · rename_i hp
      split
      · simp
      · split
        · simp
        · simpa using hp

theorem readParts_written (ps : List Char) :
    readParts (ps.flatMap written ++ ['$']) = some (ps.map part ++ [.finish]) := by
  induction ps with
  | nil => rfl
  | cons p ps ih =>
    rw [List.flatMap_cons, List.append_assoc, List.map_cons, written, part]
    by_cases hstar : p = '*'
    · rw [if_pos hstar, if_pos hstar]
      change (readParts (ps.flatMap written ++ ['$'])).map (.anyRun :: ·) = _
      rw [ih]
      rfl
    · rw [if_neg hstar, if_neg hstar]
      by_cases hquestion : p = '?'
      · rw [if_pos hquestion, if_pos hquestion, List.singleton_append,
          readParts_any (head?_flatMap_written ps), ih]
        rfl
      · rw [if_neg hquestion, if_neg hquestion]
        cases hmeta : isMeta p with
        | true =>
          rw [if_pos rfl, List.cons_append, List.singleton_append, readParts_escaped hmeta, ih]
          rfl
        | false =>
          rw [if_neg Bool.false_ne_true, List.singleton_append, readParts_letter hmeta, ih]
          rfl

/-- A pattern that is written as an expression reads back as its parts between the two ends. -/
theorem read_expression (ps : List Char) :
    Expression.read (expression ps) = some (.start :: ps.map part ++ [.finish]) := by
  change readParts ('^' :: (ps.flatMap written ++ ['$'])) = _
  rw [readParts, readParts_written]
  rfl

/-- What a part takes does not depend on what is around, the two ends apart. -/
theorem takes_part_iff {before run after : List Char} :
    (part p).Takes before run after ↔ Takes p run := by
  by_cases hstar : p = '*'
  · subst hstar
    rw [takes_star_iff]
    exact ⟨fun h => by cases h; assumption, .anyRun⟩
  · rw [takes_iff hstar, part, if_neg hstar]
    by_cases hquestion : p = '?'
    · simp only [if_pos hquestion]
      constructor
      · intro h
        cases h with
        | any h => exact ⟨_, rfl, h⟩
      · rintro ⟨c, rfl, h⟩
        exact .any h
    · simp only [if_neg hquestion]
      constructor
      · intro h
        cases h with
        | letter h => exact ⟨_, rfl, beq_iff_eq.2 h⟩
      · rintro ⟨c, rfl, h⟩
        exact .letter (eq_of_beq h)

theorem takes_parts_iff {before after : List Char} :
    Expression.Takes (ps.map part ++ [.finish]) before text after ↔ after = [] ∧ Fits ps text := by
  induction ps generalizing before text with
  | nil =>
    simp only [List.map_nil, List.nil_append, takes_cons_iff, takes_nil_iff, takes_finish_iff,
      fits_nil]
    constructor
    · rintro ⟨run, rest, rfl, ⟨rfl, hafter⟩, rfl⟩
      exact ⟨hafter, rfl⟩
    · rintro ⟨rfl, rfl⟩
      exact ⟨[], [], rfl, ⟨rfl, rfl⟩, rfl⟩
  | cons p ps ih =>
    simp only [List.map_cons, List.cons_append, takes_cons_iff, takes_part_iff, ih, fits_cons]
    constructor
    · rintro ⟨run, rest, htext, hrun, hafter, hrest⟩
      exact ⟨hafter, run, rest, htext, hrun, hrest⟩
    · rintro ⟨hafter, run, rest, htext, hrun, hrest⟩
      exact ⟨run, rest, htext, hrun, hafter, hrest⟩

/-- Between its two ends the expression of a pattern takes a whole text. -/
theorem found_iff : Found (.start :: ps.map part ++ [.finish]) text ↔ Fits ps text := by
  simp only [Found, List.cons_append, takes_cons_iff, takes_start_iff, takes_parts_iff]
  constructor
  · rintro ⟨_, _, _, rfl, _, rest, rfl, ⟨rfl, rfl⟩, rfl, h⟩
    simpa using h
  · intro h
    exact ⟨[], text, [], by simp, [], text, rfl, ⟨rfl, rfl⟩, rfl, h⟩

/-! ## Patterns that are read -/

theorem isEmpty_or_any_eq_false_iff {text : String} :
    (text.isEmpty || text.toList.any fun c => c == '/' || c == '\\') = false ↔
      text ≠ "" ∧ '/' ∉ text.toList ∧ '\\' ∉ text.toList := by
  rw [Bool.or_eq_false_iff, List.any_eq_false, String.isEmpty_eq_false_iff]
  refine and_congr_right fun _ => ?_
  constructor
  · intro h
    exact ⟨fun hslash => h _ hslash (by decide), fun hback => h _ hback (by decide)⟩
  · rintro ⟨hslash, hback⟩ c hc h
    rcases Bool.or_eq_true_iff.1 h with h | h
    · exact hslash (eq_of_beq h ▸ hc)
    · exact hback (eq_of_beq h ▸ hc)

/-- A pattern is read as its text without the blanks around it, unless that is empty or holds a
separator of directories. -/
theorem parse_eq_ok {pattern : String} {p : FilePattern} : parse pattern = .ok p ↔
    p.text = Text.trim pattern ∧ Text.trim pattern ≠ "" ∧ '/' ∉ (Text.trim pattern).toList ∧
      '\\' ∉ (Text.trim pattern).toList := by
  rw [← isEmpty_or_any_eq_false_iff, parse]
  cases hrefused : (Text.trim pattern).isEmpty ||
      (Text.trim pattern).toList.any fun c => c == '/' || c == '\\' with
  | true => simp
  | false =>
    rw [if_neg Bool.false_ne_true, Except.ok.injEq]
    rcases p with ⟨text⟩
    simp [eq_comm]

/-- A pattern is read exactly if it is neither blank nor holds a separator of directories. It covers
the names that can be split among the characters of its text without the blanks around it, which are
those in which its regular expression is found. -/
theorem parse_covers_iff (pattern : String) :
    ((∃ p, parse pattern = .ok p) ↔ Text.trim pattern ≠ "" ∧ '/' ∉ (Text.trim pattern).toList ∧
      '\\' ∉ (Text.trim pattern).toList) ∧
    ∀ p, parse pattern = .ok p → p.text = Text.trim pattern ∧ ∀ name : String,
      (p.covers name = true ↔ Fits (Text.trim pattern).toList name.toList) ∧
      ∃ parts, Expression.read (expression p.text.toList) = some parts ∧
        (p.covers name = true ↔ Found parts name.toList) := by
  constructor
  · constructor
    · rintro ⟨p, hp⟩
      exact (parse_eq_ok.1 hp).2
    · intro h
      exact ⟨⟨Text.trim pattern⟩, parse_eq_ok.2 ⟨rfl, h⟩⟩
  · intro p hp
    obtain ⟨htext, _⟩ := parse_eq_ok.1 hp
    refine ⟨htext, fun name => ⟨?_, _, read_expression p.text.toList, ?_⟩⟩
    · rw [← htext]
      exact matchChars_iff
    · rw [found_iff]
      exact matchChars_iff

/-- Stars can share a name in many ways, a plus repeats nothing, and the kelvin sign is a letter in
another case. A line feed is taken by nothing but itself. -/
theorem parse_covers_iff_kelvin :
    parse " *a+?.*K\t" = .ok ⟨"*a+?.*K"⟩ ∧
    Fits (Text.trim " *a+?.*K\t").toList "xa+aA+b.c.\u212a".toList ∧
    ¬ Fits (Text.trim " *a+?.*K\t").toList "xa+aA+\n.c.k".toList := by
  have hparse : parse " *a+?.*K\t" = .ok ⟨"*a+?.*K"⟩ :=
    parse_eq_ok.2 (by decide +kernel)
  have hfits := ((parse_covers_iff " *a+?.*K\t").2 _ hparse).2
  exact ⟨hparse, (hfits "xa+aA+b.c.\u212a").1.1 (by decide +kernel),
    fun h => absurd ((hfits "xa+aA+\n.c.k").1.2 h) (by decide +kernel)⟩

end FilePattern

end ApiClient
