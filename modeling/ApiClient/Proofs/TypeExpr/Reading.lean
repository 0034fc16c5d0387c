import ApiClient.Proofs.TypeExpr.Grammar
import ApiClient.TypeExpr.Parser

/-!
# Reading accepts the grammar

The functions that read tokens look at the first character that is no blank, and at nothing else
before they decide. What they read and what remains is therefore told by the text alone.

Results:
* `eat_eq_some_iff`, `readName_eq_ok_iff`: the exact meaning of reading a mark and a name.
* `read_sound`, `readExpr_of_endsBefore`: what is read has a derivation, and a derivation followed
  by a text that does not continue it is read to its end.
* `derivation_unique`: a text has one derivation at most.
* `parse_grammar`: the three together for whole texts.
-/

namespace ApiClient.TypeExpr

open Text

/-! ## Marks -/

theorem Mark.not_isNameChar (m : Mark) : isNameChar m.char = false := by
  cases m <;> decide +kernel

theorem Mark.char_inj {m m' : Mark} : m.char = m'.char ↔ m = m' := by
  cases m <;> cases m' <;> decide

/-- The first character that is no blank. -/
def upcoming (cs : List Char) : Option Char :=
  (dropBlanks cs).head?

theorem upcoming_append {blanks : List Char} (h : ∀ c ∈ blanks, isBlank c = true) (cs : List Char) :
    upcoming (blanks ++ cs) = upcoming cs := by
  rw [upcoming, dropBlanks_append h, upcoming]

theorem upcoming_cons {c : Char} (h : isBlank c = false) (cs : List Char) :
    upcoming (c :: cs) = some c := by
  rw [upcoming, dropBlanks_of_not_isBlank h, List.head?_cons]

/-- A text begins with its first token, blanks apart. -/
theorem Spells.upcoming_eq {t : Token} {ts : List Token} {text : List Char}
    (h : Spells (t :: ts) text) (rest : List Char) :
    upcoming (text ++ rest) = t.chars.head? := by
  obtain ⟨blanks, later, rfl, _, hblanks⟩ := spells_cons_iff.1 h
  obtain ⟨c, cs, ht, hc⟩ := t.exists_cons
  rw [List.append_assoc, List.append_assoc, upcoming_append hblanks, ht, List.cons_append,
    upcoming_cons hc, List.head?_cons]

theorem eat_eq_none_iff {c : Char} {cs : List Char} : eat c cs = none ↔ upcoming cs ≠ some c := by
  unfold eat upcoming
  cases dropBlanks cs with
  | nil => simp
  | cons d rest => by_cases h : d = c <;> simp [h]

theorem eat_eq_some_iff {c : Char} (hc : isBlank c = false) {cs rest : List Char} :
    eat c cs = some rest ↔
      ∃ blanks, cs = blanks ++ c :: rest ∧ ∀ c ∈ blanks, isBlank c = true := by
  constructor
  · intro h
    obtain ⟨blanks, hblanks, hcs⟩ := exists_dropBlanks cs
    refine ⟨blanks, ?_, hblanks⟩
    rw [hcs]
    unfold eat at h
    cases hd : dropBlanks cs with
    | nil => simp [hd] at h
    | cons d later =>
      simp only [hd, Option.ite_none_right_eq_some, Option.some.injEq] at h
      obtain ⟨rfl, rfl⟩ := h
      rfl
  · rintro ⟨blanks, rfl, hblanks⟩
    unfold eat
    rw [dropBlanks_append hblanks, dropBlanks_of_not_isBlank hc]
    exact if_pos rfl

/-- Reading a mark goes on behind it. -/
theorem eat_of_spells {m : Mark} {ts : List Token} {text : List Char}
    (h : Spells (.mark m :: ts) text) (rest : List Char) :
    ∃ later, Spells ts later ∧ later.length < text.length ∧
      eat m.char (text ++ rest) = some (later ++ rest) := by
  obtain ⟨blanks, later, rfl, hlater, hblanks⟩ := spells_cons_iff.1 h
  refine ⟨later, hlater, ?_, (eat_eq_some_iff m.not_isBlank).2 ⟨blanks, ?_, hblanks⟩⟩
  · simp only [Token.chars, List.length_append, List.length_singleton]
    omega
  · simp [Token.chars]

/-- What remains after a mark is a shorter end of the text. -/
theorem suffix_of_eat (m : Mark) {cs rest : List Char} (h : eat m.char cs = some rest) :
    rest <:+ cs ∧ rest.length < cs.length := by
  obtain ⟨blanks, rfl, _⟩ := (eat_eq_some_iff m.not_isBlank).1 h
  refine ⟨⟨blanks ++ [m.char], by simp⟩, ?_⟩
  rw [List.length_append, List.length_cons]
  omega

/-- Another mark is not read. -/
theorem eat_of_spells_ne {m n : Mark} {ts : List Token} {text : List Char}
    (h : Spells (.mark m :: ts) text) (hne : n ≠ m) (rest : List Char) :
    eat n.char (text ++ rest) = none := by
  rw [eat_eq_none_iff, h.upcoming_eq, Token.chars, List.head?_cons, ne_eq, Option.some.injEq,
    Mark.char_inj]
  exact Ne.symm hne

/-! ## Names -/

theorem readName_eq_ok_iff {cs rest : List Char} {n : String} :
    readName cs = .ok (n, rest) ↔
      IsQualified n ∧ (∀ c ∈ rest.head?, isNameChar c = false) ∧
        ∃ blanks, cs = blanks ++ n.toList ++ rest ∧ ∀ c ∈ blanks, isBlank c = true := by
  constructor
  · intro h
    obtain ⟨blanks, hblanks, hcs⟩ := exists_dropBlanks cs
    simp only [readName] at h
    split at h
    · simp at h
    · split at h
      · rename_i hsegments
        simp only [Except.ok.injEq, Prod.mk.injEq] at h
        obtain ⟨rfl, rfl⟩ := h
        refine ⟨?_, ?_, blanks, ?_, hblanks⟩
        · rw [← isName_iff, isName, String.toList_ofList, hsegments, Bool.and_true]
          exact List.all_takeWhile
        · intro c hc
          have := List.head?_dropWhile_not isNameChar (dropBlanks cs)
          rw [Option.mem_def.1 hc] at this
          simpa using this
        · rw [String.toList_ofList, List.append_assoc, List.takeWhile_append_dropWhile]
          exact hcs
      · simp at h
  · rintro ⟨hn, hrest, blanks, rfl, hblanks⟩
    obtain ⟨c, cs, hc, hname⟩ := hn.exists_cons
    have hdrop : dropBlanks (blanks ++ n.toList ++ rest) = n.toList ++ rest := by
      rw [List.append_assoc, dropBlanks_append hblanks, hc, List.cons_append,
        dropBlanks_of_not_isBlank (not_isBlank_of_isNameChar hname)]
    obtain ⟨hall, hsegments⟩ := Bool.and_eq_true_iff.1 (isName_iff.2 hn)
    have hall := List.all_eq_true.1 hall
    have htake : (n.toList ++ rest).takeWhile isNameChar = n.toList := by
      rw [List.takeWhile_append_of_pos hall]
      cases rest with
      | nil => simp
      | cons d ds => simp [hrest d rfl]
    have hrest : (n.toList ++ rest).dropWhile isNameChar = rest := by
      rw [List.dropWhile_append_of_pos hall]
      cases rest with
      | nil => simp
      | cons d ds => simp [hrest d rfl]
    have hempty : n.toList.isEmpty = false := by simp [hc]
    simp only [readName, hdrop, htake, hrest, hempty, hsegments, Bool.false_eq_true, if_false,
      if_true, String.ofList_toList]

/-- What remains after a name is a shorter end of the text. -/
theorem suffix_of_readName {cs rest : List Char} {n : String} (h : readName cs = .ok (n, rest)) :
    rest <:+ cs ∧ rest.length < cs.length := by
  obtain ⟨hn, _, blanks, rfl, _⟩ := readName_eq_ok_iff.1 h
  obtain ⟨c, name, hname, _⟩ := hn.exists_cons
  refine ⟨List.suffix_append _ _, ?_⟩
  rw [hname, List.length_append, List.length_append, List.length_cons]
  omega

/-! ## What follows an expression -/

/-- The text does not continue an expression: it begins with no name, arguments or suffix. -/
def Ends (cs : List Char) : Prop :=
  ∀ c ∈ upcoming cs, isNameChar c = false ∧
    c ∉ [Mark.lessThan, .leftBracket, .question].map Mark.char

theorem ends_of_isBlank {cs : List Char} (h : ∀ c ∈ cs, isBlank c = true) : Ends cs := by
  have hnone : upcoming cs = none := by
    have := upcoming_append h []
    rwa [List.append_nil] at this
  simp [Ends, hnone]

/-- Behind an argument stands a comma or the closing bracket. -/
theorem ends_of_separator {as : List Derivation} {ts : List Token} {text : List Char}
    (h : Spells (.mark (Derivation.separator as) :: ts) text) (rest : List Char) :
    Ends (text ++ rest) := by
  have hmark : (Derivation.separator as).char ∉
      [Mark.lessThan, .leftBracket, .question].map Mark.char := by
    cases as <;> simp [Derivation.separator, Mark.char]
  intro c hc
  rw [h.upcoming_eq] at hc
  obtain rfl : (Derivation.separator as).char = c := by simpa [Token.chars] using hc
  exact ⟨Mark.not_isNameChar _, hmark⟩

theorem Ends.eat_eq_none {cs : List Char} (h : Ends cs) {m : Mark}
    (hm : m ∈ [Mark.lessThan, .leftBracket, .question]) : eat m.char cs = none :=
  eat_eq_none_iff.2 fun hc => (h _ hc).2 (List.mem_map_of_mem hm)

theorem Ends.not_isNameChar {cs : List Char} (h : Ends cs) :
    ∀ c ∈ cs.head?, isNameChar c = false := by
  intro c hc
  obtain ⟨rest, rfl⟩ := List.head?_eq_some_iff.1 (Option.mem_def.1 hc)
  cases hblank : isBlank c with
  | true => exact isNameChar_of_isBlank hblank
  | false => exact (h c (by rw [upcoming_cons hblank]; rfl)).1

/-- After a name no character of names follows: tokens go on with a mark. -/
theorem not_isNameChar_of_spells {ts : List Token} (hts : ∀ n us, ts ≠ .name n :: us)
    {text rest : List Char} (h : Spells ts text)
    (hrest : ts = [] → ∀ c ∈ rest.head?, isNameChar c = false) :
    ∀ c ∈ (text ++ rest).head?, isNameChar c = false := by
  match ts with
  | [] =>
    rw [spells_nil_iff.1 h]
    exact hrest rfl
  | .name n :: us => exact absurd rfl (hts n us)
  | .mark m :: us =>
    intro c hc
    have hupcoming := h.upcoming_eq rest
    obtain ⟨cs, hcs⟩ := List.head?_eq_some_iff.1 (Option.mem_def.1 hc)
    cases hblank : isBlank c with
    | true => exact isNameChar_of_isBlank hblank
    | false =>
      rw [hcs, upcoming_cons hblank] at hupcoming
      obtain rfl : c = m.char := by simpa [Token.chars] using hupcoming
      exact m.not_isNameChar

/-- The text does not continue the expression of a derivation. Another suffix continues every
expression; arguments and further characters of its name continue one that is a name alone. -/
def Derivation.EndsBefore : Derivation → List Char → Prop
  | .expr _ args suffixes, cs => eat '[' cs = none ∧ eat '?' cs = none ∧
    (args = [] → suffixes = [] → eat '<' cs = none ∧ ∀ c ∈ cs.head?, isNameChar c = false)

theorem Ends.endsBefore {cs : List Char} (h : Ends cs) (d : Derivation) : d.EndsBefore cs :=
  match d with
  | .expr _ _ _ => ⟨h.eat_eq_none (m := .leftBracket) (by decide),
    h.eat_eq_none (m := .question) (by decide),
    fun _ _ => ⟨h.eat_eq_none (m := .lessThan) (by decide), h.not_isNameChar⟩⟩

/-! ## Soundness -/

/-- A mark that is read stands before the tokens of what follows it. -/
theorem spells_of_eat (m : Mark) {ts : List Token} {cs text rest : List Char}
    (h : eat m.char cs = some (text ++ rest)) (htext : Spells ts text) :
    ∃ text', cs = text' ++ rest ∧ Spells (.mark m :: ts) text' := by
  obtain ⟨blanks, rfl, hblanks⟩ := (eat_eq_some_iff m.not_isBlank).1 h
  refine ⟨blanks ++ [m.char] ++ text, ?_, .cons hblanks htext⟩
  simp

/-- A name that is read stands before the tokens of what follows it. -/
theorem spells_of_readName {n : String} {ts : List Token} {cs text rest : List Char}
    (h : readName cs = .ok (n, text ++ rest)) (htext : Spells ts text) :
    ∃ name : Name, name.text = n ∧
      ∃ text', cs = text' ++ rest ∧ Spells (.name name :: ts) text' := by
  obtain ⟨hn, _, blanks, rfl, hblanks⟩ := readName_eq_ok_iff.1 h
  refine ⟨⟨n, hn⟩, rfl, blanks ++ n.toList ++ text, ?_, .cons hblanks htext⟩
  simp

theorem readSuffixes_sound {fuel : Nat} {e e' : TypeExpr} {cs rest : List Char}
    (h : readSuffixes fuel e cs = .ok (e', rest)) :
    ∃ (suffixes : List Suffix) (text : List Char), cs = text ++ rest ∧
      Spells (suffixes.flatMap Suffix.tokens) text ∧ suffixes.foldl Suffix.apply e = e' := by
  induction fuel generalizing e cs with
  | zero =>
    simp only [readSuffixes, Except.ok.injEq, Prod.mk.injEq] at h
    exact ⟨[], [], h.2, .nil, h.1⟩
  | succ fuel ih =>
    rw [readSuffixes] at h
    split at h
    · rename_i hleft
      split at h
      · rename_i hright
        obtain ⟨suffixes, text, rfl, htext, he⟩ := ih h
        obtain ⟨_, rfl, htext⟩ := spells_of_eat .rightBracket hright htext
        obtain ⟨text, rfl, htext⟩ := spells_of_eat .leftBracket hleft htext
        exact ⟨.array :: suffixes, text, rfl, htext, he⟩
      · simp at h
    · split at h
      · rename_i hquestion
        obtain ⟨suffixes, text, rfl, htext, he⟩ := ih h
        obtain ⟨text, rfl, htext⟩ := spells_of_eat .question hquestion htext
        exact ⟨.nullable :: suffixes, text, rfl, htext, he⟩
      · simp only [Except.ok.injEq, Prod.mk.injEq] at h
        exact ⟨[], [], h.2, .nil, h.1⟩

/-- Suffixes are read until there is none, if there is fuel for them. -/
theorem readSuffixes_stops {fuel : Nat} {e e' : TypeExpr} {cs rest : List Char}
    (hfuel : cs.length < fuel) (h : readSuffixes fuel e cs = .ok (e', rest)) :
    eat '[' rest = none ∧ eat '?' rest = none := by
  induction fuel generalizing e cs with
  | zero => omega
  | succ fuel ih =>
    rw [readSuffixes] at h
    split at h
    · rename_i hleft
      split at h
      · rename_i hright
        obtain ⟨_, hlength⟩ := suffix_of_eat .leftBracket hleft
        obtain ⟨_, hlength'⟩ := suffix_of_eat .rightBracket hright
        exact ih (by omega) h
      · simp at h
    · rename_i hleft
      split at h
      · rename_i hquestion
        obtain ⟨_, hlength⟩ := suffix_of_eat .question hquestion
        exact ih (by omega) h
      · rename_i hquestion
        simp only [Except.ok.injEq, Prod.mk.injEq] at h
        rw [← h.2]
        exact ⟨hleft, hquestion⟩

/-- An expression that is read consists of the tokens of a derivation, and of its meaning, if its
arguments do. What remains does not continue it. -/
theorem readExpr_sound {fuel : Nat}
    (hargs : ∀ {cs rest : List Char} {es : List TypeExpr}, readArguments fuel cs = .ok (es, rest) →
      ∃ (a : Derivation) (as : List Derivation) (text : List Char), cs = text ++ rest ∧
        Spells (a.argumentTokens as) text ∧ (a :: as).map Derivation.meaning = es)
    {cs rest : List Char} {e : TypeExpr} (h : readExpr (fuel + 1) cs = .ok (e, rest)) :
    ∃ (d : Derivation) (text : List Char), cs = text ++ rest ∧ Spells d.tokens text ∧
      d.meaning = e ∧ (cs.length ≤ fuel → d.EndsBefore rest) := by
  rw [readExpr] at h
  split at h
  · simp at h
  · rename_i hname
    obtain ⟨_, hlength⟩ := suffix_of_readName hname
    have hhead := (readName_eq_ok_iff.1 hname).2.1
    split at h
    · rename_i hless
      have hstops := fun hfuel => readSuffixes_stops hfuel h
      obtain ⟨suffixes, text, rfl, htext, rfl⟩ := readSuffixes_sound h
      have hplain : suffixes = [] → eat '<' rest = none ∧
          ∀ c ∈ rest.head?, isNameChar c = false := by
        rintro rfl
        rw [spells_nil_iff.1 htext] at hless hhead
        exact ⟨hless, hhead⟩
      obtain ⟨name, rfl, text, rfl, htext⟩ := spells_of_readName hname htext
      refine ⟨.expr name [] suffixes, text, rfl, htext, rfl, fun hfuel => ?_⟩
      obtain ⟨hleft, hquestion⟩ := hstops (by omega)
      exact ⟨hleft, hquestion, fun _ hnil => hplain hnil⟩
    · rename_i hless
      obtain ⟨_, hlength'⟩ := suffix_of_eat .lessThan hless
      split at h
      · simp at h
      · rename_i hread
        have hstops := fun hfuel => readSuffixes_stops hfuel h
        obtain ⟨suffixes, later, rfl, hlater, rfl⟩ := readSuffixes_sound h
        obtain ⟨a, as, text, rfl, htext, rfl⟩ := hargs hread
        rw [List.length_append] at hlength'
        rw [← List.append_assoc] at hless
        obtain ⟨_, rfl, htext⟩ := spells_of_eat .lessThan hless (htext.append hlater)
        obtain ⟨name, rfl, text, rfl, htext⟩ := spells_of_readName hname htext
        refine ⟨.expr name (a :: as) suffixes, text, rfl, ?_, ?_, fun hfuel => ?_⟩
        · rw [Derivation.tokens_expr]
          exact htext
        · rw [Derivation.meaning, Derivation.meanings_eq_map]
        · obtain ⟨hleft, hquestion⟩ := hstops (by omega)
          exact ⟨hleft, hquestion, fun hnil => absurd hnil (List.cons_ne_nil _ _)⟩

/-- What is read consists of the tokens of a derivation, and of its meaning. Expressions and
arguments are read with less and less fuel, which carries the induction for both. -/
theorem read_sound (fuel : Nat) :
    (∀ {cs rest : List Char} {e : TypeExpr}, readExpr fuel cs = .ok (e, rest) →
      ∃ (d : Derivation) (text : List Char), cs = text ++ rest ∧ Spells d.tokens text ∧
        d.meaning = e) ∧
    ∀ {cs rest : List Char} {es : List TypeExpr}, readArguments fuel cs = .ok (es, rest) →
      ∃ (a : Derivation) (as : List Derivation) (text : List Char), cs = text ++ rest ∧
        Spells (a.argumentTokens as) text ∧ (a :: as).map Derivation.meaning = es := by
  induction fuel with
  | zero => simp [readExpr, readArguments]
  | succ fuel ih =>
    constructor
    · intro cs rest e h
      obtain ⟨d, text, hcs, htext, he, _⟩ := readExpr_sound ih.2 h
      exact ⟨d, text, hcs, htext, he⟩
    · intro cs rest es h
      rw [readArguments] at h
      split at h
      · simp at h
      · rename_i harg
        split at h
        · rename_i hcomma
          split at h
          · simp at h
          · rename_i hargs
            simp only [Except.ok.injEq, Prod.mk.injEq] at h
            obtain ⟨rfl, rfl⟩ := h
            obtain ⟨b, bs, later, rfl, hlater, rfl⟩ := ih.2 hargs
            obtain ⟨later, rfl, hlater⟩ := spells_of_eat .comma hcomma hlater
            obtain ⟨a, text, rfl, htext, rfl⟩ := ih.1 harg
            refine ⟨a, b :: bs, text ++ later, (List.append_assoc ..).symm, ?_, rfl⟩
            rw [Derivation.argumentTokens_eq]
            exact htext.append hlater
        · split at h
          · rename_i hgreater
            simp only [Except.ok.injEq, Prod.mk.injEq] at h
            obtain ⟨rfl, rfl⟩ := h
            obtain ⟨later, rfl, hlater⟩ :=
              spells_of_eat .greaterThan (show eat '>' _ = some ([] ++ _) from hgreater) .nil
            obtain ⟨a, text, rfl, htext, rfl⟩ := ih.1 harg
            refine ⟨a, [], text ++ later, (List.append_assoc ..).symm, ?_, rfl⟩
            rw [Derivation.argumentTokens_eq]
            exact htext.append hlater
          · simp at h

/-! ## Completeness -/

theorem suffixes_ne_name (suffixes : List Suffix) (n : Name) (us : List Token) :
    suffixes.flatMap Suffix.tokens ≠ .name n :: us := by
  match suffixes with
  | [] => simp
  | .array :: _ | .nullable :: _ => simp [Suffix.tokens]

theorem laterThanName_ne_name (args : List Derivation) (suffixes : List Suffix) (n : Name)
    (us : List Token) : Derivation.laterThanName args suffixes ≠ .name n :: us := by
  match args with
  | [] => exact suffixes_ne_name suffixes n us
  | _ :: _ => simp [Derivation.laterThanName]

theorem laterThanName_eq_nil {args : List Derivation} {suffixes : List Suffix}
    (h : Derivation.laterThanName args suffixes = []) : args = [] ∧ suffixes = [] := by
  match args, suffixes with
  | [], [] => exact ⟨rfl, rfl⟩
  | [], .array :: _ | [], .nullable :: _ | _ :: _, _ =>
    simp [Derivation.laterThanName, Suffix.tokens] at h

/-- Reading a name goes on behind it. -/
theorem readName_of_spells {n : Name} {ts : List Token} (hts : ∀ n us, ts ≠ .name n :: us)
    {text rest : List Char} (h : Spells (.name n :: ts) text)
    (hrest : ts = [] → ∀ c ∈ rest.head?, isNameChar c = false) :
    ∃ later, Spells ts later ∧ later.length < text.length ∧
      readName (text ++ rest) = .ok (n.text, later ++ rest) := by
  obtain ⟨blanks, later, rfl, hlater, hblanks⟩ := spells_cons_iff.1 h
  obtain ⟨c, cs, hn, _⟩ := (Token.name n).exists_cons
  refine ⟨later, hlater, ?_, readName_eq_ok_iff.2 ⟨n.wellFormed, ?_, blanks, ?_, hblanks⟩⟩
  · simp only [hn, List.length_append, List.length_cons]
    omega
  · exact not_isNameChar_of_spells hts hlater hrest
  · simp [Token.chars]

/-- Suffixes are no arguments. -/
theorem eat_lessThan_of_spells {suffixes : List Suffix} {text rest : List Char}
    (h : Spells (suffixes.flatMap Suffix.tokens) text)
    (hrest : suffixes = [] → eat '<' rest = none) : eat '<' (text ++ rest) = none := by
  match suffixes with
  | [] =>
    rw [spells_nil_iff.1 h]
    exact hrest rfl
  | .array :: _ => exact eat_of_spells_ne (m := .leftBracket) (n := .lessThan) h (by decide) rest
  | .nullable :: _ => exact eat_of_spells_ne (m := .question) (n := .lessThan) h (by decide) rest

/-- There are no more suffixes than characters. -/
theorem length_le_of_spells {suffixes : List Suffix} {text : List Char}
    (h : Spells (suffixes.flatMap Suffix.tokens) text) : suffixes.length ≤ text.length := by
  have htokens : suffixes.length ≤ (suffixes.flatMap Suffix.tokens).length := by
    clear h
    induction suffixes with
    | nil => exact Nat.le_refl 0
    | cons s suffixes ih =>
      have hs : 0 < s.tokens.length := by cases s <;> decide
      rw [List.flatMap_cons, List.length_append, List.length_cons]
      omega
  exact Nat.le_trans htokens h.length_le

theorem readSuffixes_of_spells {suffixes : List Suffix} {text rest : List Char}
    (h : Spells (suffixes.flatMap Suffix.tokens) text) (hleft : eat '[' rest = none)
    (hquestion : eat '?' rest = none) {fuel : Nat} (hfuel : suffixes.length ≤ fuel) (e : TypeExpr) :
    readSuffixes fuel e (text ++ rest) = .ok (suffixes.foldl Suffix.apply e, rest) := by
  induction suffixes generalizing text fuel e with
  | nil =>
    rw [spells_nil_iff.1 h, List.nil_append]
    cases fuel with
    | zero => rfl
    | succ fuel => simp [readSuffixes, hleft, hquestion]
  | cons s suffixes ih =>
    obtain ⟨fuel, rfl⟩ : ∃ f, fuel = f + 1 := Nat.exists_eq_add_one.2 (by simp at hfuel; omega)
    have hsuffixes : suffixes.length ≤ fuel := Nat.le_of_succ_le_succ hfuel
    cases s with
    | array =>
      obtain ⟨text₁, htext₁, _, hleft⟩ := eat_of_spells (m := .leftBracket) h rest
      obtain ⟨text₂, htext₂, _, hright⟩ := eat_of_spells (m := .rightBracket) htext₁ rest
      change eat '[' _ = _ at hleft
      change eat ']' _ = _ at hright
      simp only [readSuffixes, hleft, hright]
      exact ih htext₂ hsuffixes (.array e)
    | nullable =>
      have hleft : eat '[' (text ++ rest) = none :=
        eat_of_spells_ne (m := .question) (n := .leftBracket) h (by decide) rest
      obtain ⟨text₁, htext₁, _, hquestion⟩ := eat_of_spells (m := .question) h rest
      change eat '?' _ = _ at hquestion
      simp only [readSuffixes, hleft, hquestion]
      exact ih htext₁ hsuffixes e.nullable

/-- Arguments are read to the closing bracket if each of them is read to its end. -/
theorem readArguments_of_spells {a : Derivation} {as : List Derivation}
    (hargs : ∀ d ∈ a :: as, ∀ {text rest : List Char} {fuel : Nat}, Spells d.tokens text →
      Ends rest → 2 * text.length ≤ fuel → readExpr fuel (text ++ rest) = .ok (d.meaning, rest))
    {text : List Char} (h : Spells (a.argumentTokens as) text) (rest : List Char) {fuel : Nat}
    (hfuel : 2 * text.length ≤ fuel) :
    readArguments fuel (text ++ rest) = .ok ((a :: as).map Derivation.meaning, rest) := by
  induction as generalizing a text fuel with
  | nil =>
    rw [Derivation.argumentTokens_eq] at h
    obtain ⟨first, last, rfl, hfirst, hlast⟩ := spells_append_iff.1 h
    obtain ⟨later, hlater, hlength, hgreater⟩ := eat_of_spells (m := .greaterThan) hlast rest
    rw [List.length_append] at hfuel
    obtain ⟨fuel, rfl⟩ : ∃ f, fuel = f + 1 := Nat.exists_eq_add_one.2 (by omega)
    have harg := hargs a (.head _) hfirst (ends_of_separator hlast rest)
      (show 2 * first.length ≤ fuel by omega)
    have hcomma : eat ',' (last ++ rest) = none :=
      eat_of_spells_ne (m := .greaterThan) (n := .comma) hlast (by decide) rest
    change eat '>' _ = _ at hgreater
    rw [spells_nil_iff.1 hlater] at hgreater
    simp [readArguments, harg, hcomma, hgreater]
  | cons b bs ih =>
    rw [Derivation.argumentTokens_eq] at h
    obtain ⟨first, last, rfl, hfirst, hlast⟩ := spells_append_iff.1 h
    obtain ⟨later, hlater, hlength, hcomma⟩ := eat_of_spells (m := .comma) hlast rest
    rw [List.length_append] at hfuel
    obtain ⟨fuel, rfl⟩ : ∃ f, fuel = f + 1 := Nat.exists_eq_add_one.2 (by omega)
    have harg := hargs a (.head _) hfirst (ends_of_separator hlast rest)
      (show 2 * first.length ≤ fuel by omega)
    have hrest := ih (fun d hd => hargs d (.tail _ hd)) hlater
      (show 2 * later.length ≤ fuel by omega)
    change eat ',' _ = _ at hcomma
    simp [readArguments, harg, hcomma, hrest]

/-- A derivation is read to its end. Twice the length of its text is fuel enough: an argument takes
two units and, with the mark behind it, two characters at least. -/
theorem readExpr_of_endsBefore (d : Derivation) {text rest : List Char} {fuel : Nat}
    (h : Spells d.tokens text) (hrest : d.EndsBefore rest) (hfuel : 2 * text.length ≤ fuel) :
    readExpr fuel (text ++ rest) = .ok (d.meaning, rest) := by
  induction d using Derivation.induction generalizing text rest fuel with
  | expr name args suffixes ih =>
    rw [Derivation.tokens_expr] at h
    obtain ⟨hleft, hquestion, hplain⟩ := hrest
    have hhead : Derivation.laterThanName args suffixes = [] →
        ∀ c ∈ rest.head?, isNameChar c = false := by
      intro hnil
      obtain ⟨rfl, rfl⟩ := laterThanName_eq_nil hnil
      exact (hplain rfl rfl).2
    obtain ⟨later, hlater, hlength, hname⟩ :=
      readName_of_spells (laterThanName_ne_name args suffixes) h hhead
    obtain ⟨fuel, rfl⟩ : ∃ f, fuel = f + 1 := Nat.exists_eq_add_one.2 (by omega)
    cases args with
    | nil =>
      have hless := eat_lessThan_of_spells hlater fun hnil => (hplain rfl hnil).1
      have hsuffixes := length_le_of_spells hlater
      simp only [readExpr, hname, hless]
      exact readSuffixes_of_spells hlater hleft hquestion (by omega) _
    | cons a as =>
      obtain ⟨inner, hinner, hlength', hless⟩ := eat_of_spells (m := .lessThan) hlater rest
      obtain ⟨first, last, rfl, hfirst, hlast⟩ := spells_append_iff.1 hinner
      rw [List.length_append] at hlength'
      rw [List.append_assoc] at hless
      have hread : ∀ d ∈ a :: as, ∀ {text rest : List Char} {fuel : Nat}, Spells d.tokens text →
          Ends rest → 2 * text.length ≤ fuel →
            readExpr fuel (text ++ rest) = .ok (d.meaning, rest) :=
        fun d hd _ _ _ htext hends hfuel => ih d hd htext (hends.endsBefore d) hfuel
      have hargs := readArguments_of_spells hread hfirst (last ++ rest)
        (show 2 * first.length ≤ fuel by omega)
      have hsuffixes := length_le_of_spells hlast
      change eat '<' _ = _ at hless
      simp only [readExpr, hname, hless, hargs]
      rw [Derivation.meaning, Derivation.meanings_eq_map]
      exact readSuffixes_of_spells hlast hleft hquestion (by omega) _

theorem readExpr_of_spells (d : Derivation) {text rest : List Char} {fuel : Nat}
    (h : Spells d.tokens text) (hrest : Ends rest) (hfuel : 2 * text.length ≤ fuel) :
    readExpr fuel (text ++ rest) = .ok (d.meaning, rest) :=
  readExpr_of_endsBefore d h (hrest.endsBefore d) hfuel

/-! ## Uniqueness -/

section Unique

variable {text text' rest rest' : List Char} {ts ts' : List Token}

/-- Texts that begin with marks begin with the same one if they are equal. -/
theorem mark_unique {m m' : Mark} (h : Spells (.mark m :: ts) text)
    (h' : Spells (.mark m' :: ts') text') (he : text ++ rest = text' ++ rest') :
    m = m' ∧ ∃ later later', Spells ts later ∧ Spells ts' later' ∧
      later ++ rest = later' ++ rest' := by
  have hm : m.char = m'.char := by
    have hupcoming := h.upcoming_eq rest
    rw [he, h'.upcoming_eq] at hupcoming
    simpa [Token.chars] using hupcoming.symm
  obtain rfl := Mark.char_inj.1 hm
  obtain ⟨later, hlater, _, heat⟩ := eat_of_spells h rest
  obtain ⟨later', hlater', _, heat'⟩ := eat_of_spells h' rest'
  rw [he, heat'] at heat
  exact ⟨rfl, later, later', hlater, hlater', (Option.some.inj heat).symm⟩

theorem name_unique {n n' : Name} (hts : ∀ n us, ts ≠ .name n :: us)
    (hts' : ∀ n us, ts' ≠ .name n :: us) (h : Spells (.name n :: ts) text)
    (h' : Spells (.name n' :: ts') text') (hrest : Ends rest) (hrest' : Ends rest')
    (he : text ++ rest = text' ++ rest') :
    n = n' ∧ ∃ later later', Spells ts later ∧ Spells ts' later' ∧
      later ++ rest = later' ++ rest' := by
  obtain ⟨later, hlater, _, hread⟩ := readName_of_spells hts h fun _ => hrest.not_isNameChar
  obtain ⟨later', hlater', _, hread'⟩ := readName_of_spells hts' h' fun _ => hrest'.not_isNameChar
  rw [he, hread'] at hread
  obtain ⟨hn, hlaters⟩ := Prod.mk.inj (Except.ok.inj hread)
  refine ⟨?_, later, later', hlater, hlater', hlaters.symm⟩
  cases n
  cases n'
  cases hn
  rfl

/-- A suffix continues an expression. -/
theorem not_ends_of_suffix {s : Suffix} {suffixes : List Suffix}
    (h : Spells ((s :: suffixes).flatMap Suffix.tokens) text) (rest : List Char) :
    ¬ Ends (text ++ rest) := by
  have hmark : ∀ {m : Mark} {us : List Token}, m ∈ [Mark.lessThan, .leftBracket, .question] →
      Spells (.mark m :: us) text → ¬ Ends (text ++ rest) := by
    intro m us hm h hends
    have hnone := hends.eat_eq_none hm
    obtain ⟨_, _, _, hsome⟩ := eat_of_spells h rest
    simp [hsome] at hnone
  cases s with
  | array => exact hmark (m := .leftBracket) (by decide) h
  | nullable => exact hmark (m := .question) (by decide) h

theorem suffixes_unique {suffixes suffixes' : List Suffix}
    (h : Spells (suffixes.flatMap Suffix.tokens) text)
    (h' : Spells (suffixes'.flatMap Suffix.tokens) text') (hrest : Ends rest) (hrest' : Ends rest')
    (he : text ++ rest = text' ++ rest') : suffixes = suffixes' ∧ rest = rest' := by
  induction suffixes generalizing suffixes' text text' with
  | nil =>
    rw [spells_nil_iff.1 h, List.nil_append] at he
    cases suffixes' with
    | nil =>
      rw [spells_nil_iff.1 h', List.nil_append] at he
      exact ⟨rfl, he⟩
    | cons s' suffixes' => exact absurd (he ▸ hrest) (not_ends_of_suffix h' rest')
  | cons s suffixes ih =>
    cases suffixes' with
    | nil =>
      rw [spells_nil_iff.1 h', List.nil_append] at he
      exact absurd (he ▸ hrest') (not_ends_of_suffix h rest)
    | cons s' suffixes' =>
      match s, s' with
      | .array, .array =>
        obtain ⟨_, _, _, h, h', he⟩ := mark_unique h h' he
        obtain ⟨_, _, _, h, h', he⟩ := mark_unique h h' he
        obtain ⟨rfl, hrests⟩ := ih h h' he
        exact ⟨rfl, hrests⟩
      | .nullable, .nullable =>
        obtain ⟨_, _, _, h, h', he⟩ := mark_unique h h' he
        obtain ⟨rfl, hrests⟩ := ih h h' he
        exact ⟨rfl, hrests⟩
      | .array, .nullable | .nullable, .array =>
        obtain ⟨hmark, _⟩ := mark_unique h h' he
        contradiction

/-- The first argument and the mark behind it are told by the text. -/
theorem argument_unique {a a' : Derivation} {as as' : List Derivation}
    (harg : ∀ {d' : Derivation} {text text' rest rest' : List Char},
      Spells a.tokens text → Spells d'.tokens text' → Ends rest → Ends rest' →
      text ++ rest = text' ++ rest' → a = d' ∧ rest = rest')
    (h : Spells (a.argumentTokens as) text) (h' : Spells (a'.argumentTokens as') text')
    (he : text ++ rest = text' ++ rest') :
    a = a' ∧ Derivation.separator as = Derivation.separator as' ∧
      ∃ later later', Spells (Derivation.remainingTokens as) later ∧
        Spells (Derivation.remainingTokens as') later' ∧ later ++ rest = later' ++ rest' := by
  rw [Derivation.argumentTokens_eq] at h h'
  obtain ⟨first, last, rfl, hfirst, hlast⟩ := spells_append_iff.1 h
  obtain ⟨first', last', rfl, hfirst', hlast'⟩ := spells_append_iff.1 h'
  have hends := ends_of_separator hlast rest
  have hends' := ends_of_separator hlast' rest'
  rw [List.append_assoc, List.append_assoc] at he
  obtain ⟨rfl, he⟩ := harg hfirst hfirst' hends hends' he
  exact ⟨rfl, mark_unique hlast hlast' he⟩

/-- Arguments up to the closing bracket are told by their text if each of them is. -/
theorem arguments_unique {a a' : Derivation} {as as' : List Derivation}
    (hargs : ∀ d ∈ a :: as, ∀ {d' : Derivation} {text text' rest rest' : List Char},
      Spells d.tokens text → Spells d'.tokens text' → Ends rest → Ends rest' →
      text ++ rest = text' ++ rest' → d = d' ∧ rest = rest')
    (h : Spells (a.argumentTokens as) text) (h' : Spells (a'.argumentTokens as') text')
    (he : text ++ rest = text' ++ rest') : a :: as = a' :: as' ∧ rest = rest' := by
  induction as generalizing a a' as' text text' with
  | nil =>
    obtain ⟨rfl, hseparator, later, later', hlater, hlater', he⟩ :=
      argument_unique (hargs a (.head _)) h h' he
    cases as' with
    | nil =>
      rw [spells_nil_iff.1 hlater, spells_nil_iff.1 hlater'] at he
      exact ⟨rfl, he⟩
    | cons => contradiction
  | cons b bs ih =>
    obtain ⟨rfl, hseparator, later, later', hlater, hlater', he⟩ :=
      argument_unique (hargs a (.head _)) h h' he
    cases as' with
    | nil => contradiction
    | cons =>
      obtain ⟨hlists, hrests⟩ := ih (fun d hd => hargs d (.tail _ hd)) hlater hlater' he
      exact ⟨by rw [hlists], hrests⟩

/-- A text has one derivation at most, and the same text follows it. The induction is on the first
derivation; the other one has the same name, arguments and suffixes, since the same marks are met.
-/
theorem derivation_unique (d : Derivation) {d' : Derivation} (h : Spells d.tokens text)
    (h' : Spells d'.tokens text') (hrest : Ends rest) (hrest' : Ends rest')
    (he : text ++ rest = text' ++ rest') : d = d' ∧ rest = rest' := by
  induction d using Derivation.induction generalizing d' text text' rest rest' with
  | expr name args suffixes ih =>
    obtain ⟨name', args', suffixes'⟩ := d'
    rw [Derivation.tokens_expr] at h h'
    obtain ⟨rfl, later, later', hlater, hlater', he⟩ := name_unique
      (laterThanName_ne_name args suffixes) (laterThanName_ne_name args' suffixes') h h' hrest
      hrest' he
    cases args with
    | nil =>
      cases args' with
      | nil =>
        obtain ⟨rfl, hrests⟩ := suffixes_unique hlater hlater' hrest hrest' he
        exact ⟨rfl, hrests⟩
      | cons a' as' =>
        have hnone := eat_lessThan_of_spells hlater fun _ =>
          hrest.eat_eq_none (m := .lessThan) (by decide)
        obtain ⟨_, _, _, hsome⟩ := eat_of_spells (m := .lessThan) hlater' rest'
        change eat '<' _ = _ at hsome
        simp [he, hsome] at hnone
    | cons a as =>
      cases args' with
      | nil =>
        have hnone := eat_lessThan_of_spells hlater' fun _ =>
          hrest'.eat_eq_none (m := .lessThan) (by decide)
        obtain ⟨_, _, _, hsome⟩ := eat_of_spells (m := .lessThan) hlater rest
        change eat '<' _ = _ at hsome
        simp [← he, hsome] at hnone
      | cons a' as' =>
        obtain ⟨_, inner, inner', hinner, hinner', he⟩ := mark_unique hlater hlater' he
        obtain ⟨first, last, rfl, hfirst, hlast⟩ := spells_append_iff.1 hinner
        obtain ⟨first', last', rfl, hfirst', hlast'⟩ := spells_append_iff.1 hinner'
        rw [List.append_assoc, List.append_assoc] at he
        obtain ⟨hargs, hlasts⟩ := arguments_unique (fun d hd => ih d hd) hfirst hfirst' he
        obtain ⟨rfl, hrests⟩ := suffixes_unique hlast hlast' hrest hrest' hlasts
        cases hargs
        exact ⟨rfl, hrests⟩

end Unique

/-! ## Whole texts -/

/-- A derivation of a whole text is read. -/
theorem parseChars_of_derives {d : Derivation} {cs : List Char} (h : d.Derives cs) :
    parseChars cs = .ok d.meaning := by
  obtain ⟨text, blanks, rfl, htext, hblanks⟩ := h
  have hread := readExpr_of_spells d htext (ends_of_isBlank hblanks)
    (show 2 * text.length ≤ 2 * (text ++ blanks).length + 2 by rw [List.length_append]; omega)
  have hrest : dropBlanks blanks = [] := by
    have := dropBlanks_append hblanks []
    rwa [List.append_nil] at this
  simp only [parseChars, hread, hrest]

/-- What is read from a whole text has a derivation. -/
theorem exists_of_parseChars {cs : List Char} {e : TypeExpr} (h : parseChars cs = .ok e) :
    ∃ d : Derivation, d.Derives cs ∧ d.meaning = e := by
  unfold parseChars at h
  split at h
  · simp at h
  · rename_i e' rest hread
    obtain ⟨d, text, rfl, htext, rfl⟩ := (read_sound _).1 hread
    split at h
    · rename_i hrest
      obtain ⟨blanks, hblanks, hsplit⟩ := exists_dropBlanks rest
      rw [hrest, List.append_nil] at hsplit
      subst hsplit
      exact ⟨d, ⟨text, rest, rfl, htext, hblanks⟩, Except.ok.inj h⟩
    · simp at h

/-- A text is read exactly if the grammar derives it; it then has one derivation, and what is read
is the meaning of that one. -/
theorem parse_grammar (s : String) :
    ((∃ e, parse s = .ok e) ↔ ∃ d : Derivation, d.Derives s.toList) ∧
      (∀ d : Derivation, d.Derives s.toList → parse s = .ok d.meaning) ∧
      ∀ d d' : Derivation, d.Derives s.toList → d'.Derives s.toList → d = d' := by
  refine ⟨⟨?_, ?_⟩, fun d hd => parseChars_of_derives hd, ?_⟩
  · rintro ⟨e, he⟩
    obtain ⟨d, hd, _⟩ := exists_of_parseChars he
    exact ⟨d, hd⟩
  · rintro ⟨d, hd⟩
    exact ⟨d.meaning, parseChars_of_derives hd⟩
  · rintro d d' ⟨text, blanks, hs, htext, hblanks⟩ ⟨text', blanks', hs', htext', hblanks'⟩
    have he : text ++ blanks = text' ++ blanks' := hs.symm.trans hs'
    exact (derivation_unique d htext htext' (ends_of_isBlank hblanks) (ends_of_isBlank hblanks')
      he).1

/-- The only derivation of ` List < int > [ ] ?`. -/
def optionalLists : Derivation :=
  .expr ⟨"List", isName_iff.1 (by decide +kernel)⟩
    [.expr ⟨"int", isName_iff.1 (by decide +kernel)⟩ [] []] [.array, .nullable]

theorem derives_optionalLists : optionalLists.Derives " List < int > [ ] ? ".toList := by
  have hblank : ∀ c ∈ [' '], isBlank c = true := List.forall_mem_singleton.2 (by decide)
  refine ⟨" List < int > [ ] ?".toList, [' '], rfl, ?_, hblank⟩
  exact .cons hblank (.cons hblank (.cons hblank (.cons hblank (.cons hblank (.cons hblank
    (.cons hblank .nil))))))

theorem parse_grammar_optionalLists :
    optionalLists.Derives " List < int > [ ] ? ".toList ∧
      parse " List < int > [ ] ? " = .ok (nullable (.array (.named "List" [.named "int" []]))) :=
  ⟨derives_optionalLists, (parse_grammar _).2.1 optionalLists derives_optionalLists⟩

end ApiClient.TypeExpr
