import ApiClient.Proofs.TypeExpr.Reading

/-!
# Where a text is refused

Two reasons for refusing a text name an offset in bytes: one for a character that goes on after an
expression, one for a character where a name should stand. While a text is read, what remains is an
end of it, and the offset counts what comes before that.

* `Stops`: a character does not continue an expression.
* `Awaits`: a text after which a name should stand.

Results:
* `exists_trailing_of_reason`, `exists_missingName_of_reason`: the wording of a reason tells the
  fault, the character and the offset.
* `parseChars_eq_trailing_iff`: a text goes on after an expression exactly if the text before is one
  and what follows stops it.
* `read_error`, `readExpr_of_awaits`: a name is missing exactly where one should stand; the fuel is
  never used up.
* `reason_eq_iff`: the reasons that name an offset, and what stands there.
-/

namespace ApiClient

/-! ## Specification -/

namespace TypeExpr

/-- The reason for refusing a text that goes on after an expression. -/
def unexpected (c : Char) (offset : Nat) : String :=
  "unexpected '" ++ c.toString ++ "' at offset " ++ toString offset

/-- The reason for refusing a text without a name where one should stand. -/
def expectedName (c : Char) (offset : Nat) : String :=
  "expected a type name at offset " ++ toString offset ++ ", found '" ++ c.toString ++ "'"

/-- At an offset in bytes the text has a character, and before it comes `before`. -/
structure HasAt (s : String) (offset : Nat) (c : Char) (before : String) : Prop where
  exists_after : ∃ after, s = before ++ c.toString ++ after
  utf8ByteSize_eq : before.utf8ByteSize = offset

/-- The character does not continue the expression that a text is read as: it begins no suffix, no
arguments of a name alone, and does not make a name at the end of the text longer. -/
structure Stops (text : List Char) (e : TypeExpr) (c : Char) : Prop where
  suffix : c ≠ '[' ∧ c ≠ '?'
  arguments : c = '<' → ∀ name, e ≠ .named name []
  name : isNameChar c = true → ∀ d ∈ text.getLast?, isNameChar d = false

/-- The tokens of arguments with a comma behind each. -/
def commaTokens (args : List Derivation) : List Token :=
  args.flatMap fun d => d.tokens ++ [.mark .comma]

/-- After the text a name should stand. It is blank, or it goes on to such a place in the arguments
of an expression. -/
inductive Awaits : List Char → Prop where
  | start {blanks : List Char} (h : ∀ c ∈ blanks, Text.isBlank c = true) : Awaits blanks
  | argument {name : Name} {args : List Derivation} {text later : List Char}
    (htext : Spells (.name name :: .mark .lessThan :: commaTokens args) text)
    (h : Awaits later) : Awaits (text ++ later)

end TypeExpr

/-! ## Bytes -/

namespace Text

theorem byteLength_toList (s : String) : byteLength s.toList = s.utf8ByteSize := by
  have hlist : ∀ cs, byteLength cs = (String.ofList cs).utf8ByteSize := by
    intro cs
    induction cs with
    | nil => rfl
    | cons c cs ih =>
      rw [← List.singleton_append, String.ofList_append, String.utf8ByteSize_append, ← ih,
        ← String.singleton_eq_ofList, String.utf8ByteSize_singleton]
      rfl
  rw [hlist, String.ofList_toList]

theorem byteLength_append (as bs : List Char) :
    byteLength (as ++ bs) = byteLength as + byteLength bs := by
  induction as with
  | nil => exact (Nat.zero_add _).symm
  | cons a as ih =>
    change a.utf8Size + byteLength (as ++ bs) = a.utf8Size + byteLength as + byteLength bs
    rw [ih, Nat.add_assoc]

end Text

namespace TypeExpr

open Text

/-! ## Wordings -/

theorem eq_of_toString_eq {m n : Nat} (h : toString m = toString n) : m = n := by
  have hdigits : Nat.toDigits 10 m = Nat.toDigits 10 n := by
    simpa using congrArg String.toList h
  rw [← Nat.ofDigitChars_ten_toDigits (n := m), hdigits, Nat.ofDigitChars_ten_toDigits]

theorem toList_unexpected (c : Char) (offset : Nat) : (unexpected c offset).toList =
    "unexpected '".toList ++ c :: ("' at offset ".toList ++ (toString offset).toList) := by
  unfold unexpected
  rw [String.toList_append, String.toList_append, String.toList_append, Char.toString,
    String.toList_singleton, List.append_assoc, List.append_assoc, List.singleton_append]

theorem toList_expectedName (c : Char) (offset : Nat) : (expectedName c offset).toList =
    "expected a type name at offset ".toList ++ ((toString offset).toList ++
      (", found '".toList ++ c :: "'".toList)) := by
  unfold expectedName
  rw [String.toList_append, String.toList_append, String.toList_append, String.toList_append,
    Char.toString, String.toList_singleton, List.append_assoc, List.append_assoc,
    List.append_assoc, List.singleton_append]

/-- The wording tells the character and the offset. -/
theorem unexpected_inj {c d : Char} {m n : Nat} (h : unexpected c m = unexpected d n) :
    c = d ∧ m = n := by
  have hlists := congrArg String.toList h
  rw [toList_unexpected, toList_unexpected] at hlists
  obtain ⟨hc, hlater⟩ := List.cons.inj (List.append_cancel_left hlists)
  exact ⟨hc, eq_of_toString_eq (String.toList_inj.1 (List.append_cancel_left hlater))⟩

/-- The wording tells the character and the offset. -/
theorem expectedName_inj {c d : Char} {m n : Nat} (h : expectedName c m = expectedName d n) :
    c = d ∧ m = n := by
  have hlists := congrArg String.toList h
  rw [toList_expectedName, toList_expectedName] at hlists
  obtain ⟨hm, hc⟩ := List.append_inj' (List.append_cancel_left hlists)
    (by rw [List.length_append, List.length_append]; rfl)
  obtain ⟨hc, _⟩ := List.cons.inj (List.append_cancel_left hc)
  exact ⟨hc, eq_of_toString_eq (String.toList_inj.1 hm)⟩

/-- The first twelve characters of a wording, which tell the kind of the fault. -/
def Fault.opening : Fault → String
  | .trailing [] | .missingName [] => "unexpected e"
  | .trailing (_ :: _) => "unexpected '"
  | .missingName (_ :: _) => "expected a t"
  | .malformedName _ => "malformed qu"
  | .openArguments => "expected ','"
  | .openArray => "expected ']'"

theorem take_unexpected (c : Char) (offset : Nat) :
    (unexpected c offset).toList.take 12 = "unexpected '".toList := by
  rw [toList_unexpected]
  exact List.take_left' rfl

theorem take_expectedName (c : Char) (offset : Nat) :
    (expectedName c offset).toList.take 12 = "expected a t".toList := by
  rw [toList_expectedName, List.take_append_of_le_length (by decide)]
  decide

theorem reason_trailing (input : List Char) (c : Char) (rest : List Char) :
    Fault.reason input (.trailing (c :: rest)) =
      unexpected c (Fault.reason.offset input (c :: rest)) :=
  rfl

theorem reason_missingName (input : List Char) (c : Char) (rest : List Char) :
    Fault.reason input (.missingName (c :: rest)) =
      expectedName c (Fault.reason.offset input (c :: rest)) :=
  rfl

theorem take_reason (input : List Char) (fault : Fault) :
    (fault.reason input).toList.take 12 = fault.opening.toList := by
  match fault with
  | .trailing [] | .missingName [] =>
    change "unexpected end of input".toList.take 12 = _
    decide
  | .trailing (c :: rest) =>
    rw [reason_trailing]
    exact take_unexpected c _
  | .missingName (c :: rest) =>
    rw [reason_missingName]
    exact take_expectedName c _
  | .malformedName name =>
    unfold Fault.reason
    rw [String.toList_append, String.toList_append, List.append_assoc,
      List.take_append_of_le_length (by decide)]
    change "malformed qualified name '".toList.take 12 = "malformed qu".toList
    decide
  | .openArguments =>
    change "expected ',' or '>' in generic argument list".toList.take 12 = "expected ','".toList
    decide
  | .openArray =>
    change "expected ']' after '['".toList.take 12 = "expected ']'".toList
    decide

/-- Only text that is left has the wording with what is unexpected. -/
theorem exists_trailing_of_reason {input : List Char} {fault : Fault} {c : Char} {offset : Nat}
    (h : fault.reason input = unexpected c offset) :
    ∃ rest, fault = .trailing (c :: rest) ∧ Fault.reason.offset input (c :: rest) = offset := by
  have hopening : fault.opening.toList = "unexpected '".toList := by
    rw [← take_reason input, h, take_unexpected]
  match fault with
  | .trailing (d :: rest) =>
    rw [reason_trailing] at h
    obtain ⟨rfl, hoffset⟩ := unexpected_inj h
    exact ⟨rest, rfl, hoffset⟩
  | .trailing [] | .missingName [] => exact absurd hopening (by decide)
  | .missingName (_ :: _) | .malformedName _ => exact absurd hopening (by simp [Fault.opening])
  | .openArguments | .openArray => exact absurd hopening (by decide)

/-- Only a missing name has the wording with what is found in its place. -/
theorem exists_missingName_of_reason {input : List Char} {fault : Fault} {c : Char} {offset : Nat}
    (h : fault.reason input = expectedName c offset) :
    ∃ rest, fault = .missingName (c :: rest) ∧ Fault.reason.offset input (c :: rest) = offset := by
  have hopening : fault.opening.toList = "expected a t".toList := by
    rw [← take_reason input, h, take_expectedName]
  match fault with
  | .missingName (d :: rest) =>
    rw [reason_missingName] at h
    obtain ⟨rfl, hoffset⟩ := expectedName_inj h
    exact ⟨rest, rfl, hoffset⟩
  | .trailing [] | .missingName [] => exact absurd hopening (by decide)
  | .trailing (_ :: _) | .malformedName _ => exact absurd hopening (by simp [Fault.opening])
  | .openArguments | .openArray => exact absurd hopening (by decide)

/-! ## What goes on after an expression -/

section Stops

variable {text blanks after : List Char} {c : Char}

/-- A text that ends in a mark ends in its character. -/
theorem getLast?_of_spells_mark {ts : List Token} {m : Mark} (h : Spells (ts ++ [.mark m]) text) :
    text.getLast? = some m.char := by
  obtain ⟨first, last, rfl, _, hlast⟩ := spells_append_iff.1 h
  obtain ⟨blanks, later, rfl, hlater, _⟩ := spells_cons_iff.1 hlast
  rw [spells_nil_iff.1 hlater]
  simp [Token.chars]

/-- All derivations but names alone end in a mark. -/
theorem exists_mark_of_tokens {args : List Derivation} {suffixes : List Suffix}
    (h : ¬ (args = [] ∧ suffixes = [])) (name : Name) :
    ∃ ts m, (Derivation.expr name args suffixes).tokens = ts ++ [.mark m] := by
  rw [Derivation.tokens_expr]
  rcases List.eq_nil_or_concat suffixes with rfl | ⟨init, s, rfl⟩
  · cases args with
    | nil => exact absurd ⟨rfl, rfl⟩ h
    | cons a as =>
      refine ⟨.name name :: .mark .lessThan :: (a.tokens ++ Derivation.laterTokens as),
        .greaterThan, ?_⟩
      simp [Derivation.laterThanName, Derivation.argumentTokens]
  · have hsuffix : ∃ ts m, s.tokens = ts ++ [.mark m] := by
      cases s with
      | array => exact ⟨[.mark .leftBracket], .rightBracket, rfl⟩
      | nullable => exact ⟨[], .question, rfl⟩
    obtain ⟨ts, m, hs⟩ := hsuffix
    cases args with
    | nil =>
      refine ⟨.name name :: (init.flatMap Suffix.tokens ++ ts), m, ?_⟩
      simp [Derivation.laterThanName, hs]
    | cons a as =>
      refine ⟨.name name :: .mark .lessThan :: (Derivation.argumentTokens a as
        ++ (init.flatMap Suffix.tokens ++ ts)), m, ?_⟩
      simp [Derivation.laterThanName, hs]

/-- A name alone ends in a character of names. -/
theorem exists_getLast?_of_spells_name {name : Name} (h : Spells [.name name] text) :
    ∃ d ∈ text.getLast?, isNameChar d = true := by
  obtain ⟨blanks, later, rfl, hlater, _⟩ := spells_cons_iff.1 h
  rw [spells_nil_iff.1 hlater, List.append_nil]
  have hne : name.text.toList ≠ [] := by
    obtain ⟨c, cs, hname, _⟩ := name.wellFormed.exists_cons
    simp [hname]
  have hall := List.all_eq_true.1 (Bool.and_eq_true_iff.1 (isName_iff.2 name.wellFormed)).1
  refine ⟨name.text.toList.getLast hne, ?_, hall _ (List.getLast_mem hne)⟩
  rw [Token.chars, List.getLast?_append, List.getLast?_eq_some_getLast hne]
  rfl

/-- Only a name alone means a name without arguments. -/
theorem meaning_eq_named_nil_iff {name : Name} {args : List Derivation} {suffixes : List Suffix} :
    (∃ n, (Derivation.expr name args suffixes).meaning = .named n []) ↔
      args = [] ∧ suffixes = [] := by
  rw [Derivation.meaning, Derivation.meanings_eq_map]
  constructor
  · rintro ⟨n, h⟩
    rcases List.eq_nil_or_concat suffixes with rfl | ⟨init, s, rfl⟩
    · cases args with
      | nil => exact ⟨rfl, rfl⟩
      | cons a as => simp at h
    · rw [List.concat_eq_append, List.foldl_append] at h
      cases s <;> simp [Suffix.apply, nullable] at h
  · rintro ⟨rfl, rfl⟩
    exact ⟨name.text, rfl⟩

/-- What follows makes a name longer exactly if no blank and no mark stands between them. -/
theorem not_isNameChar_iff {name : Name} {args : List Derivation} {suffixes : List Suffix}
    (htext : Spells (Derivation.expr name args suffixes).tokens text)
    (hblanks : ∀ c ∈ blanks, isBlank c = true) :
    (args = [] → suffixes = [] → ∀ x ∈ (blanks ++ c :: after).head?, isNameChar x = false) ↔
      (isNameChar c = true → ∀ x ∈ (text ++ blanks).getLast?, isNameChar x = false) := by
  cases hlast : blanks.getLast? with
  | some b =>
    -- A blank stands between them.
    have hb := isNameChar_of_isBlank (hblanks b (List.mem_of_getLast? hlast))
    obtain ⟨b', bs, rfl⟩ := List.exists_cons_of_ne_nil (l := blanks) (by rintro rfl; cases hlast)
    have hb' := isNameChar_of_isBlank (hblanks b' (.head _))
    simp [List.getLast?_append, hlast, hb, hb']
  | none =>
    obtain rfl := List.getLast?_eq_none_iff.1 hlast
    by_cases hplain : args = [] ∧ suffixes = []
    · obtain ⟨rfl, rfl⟩ := hplain
      obtain ⟨d, hd, hname⟩ := exists_getLast?_of_spells_name htext
      rw [Option.mem_def] at hd
      simp [hd, hname]
    · obtain ⟨ts, m, htokens⟩ := exists_mark_of_tokens hplain name
      rw [htokens] at htext
      simp only [List.append_nil, getLast?_of_spells_mark htext, Option.mem_def,
        Option.some.injEq]
      constructor
      · rintro - - x rfl
        exact m.not_isNameChar
      · intro _ hargs hsuffixes
        exact absurd ⟨hargs, hsuffixes⟩ hplain

/-- What remains of a text after a derivation does not continue it exactly if its first character
that is not blank stops the expression. -/
theorem endsBefore_iff_stops {d : Derivation} (htext : Spells d.tokens text)
    (hblanks : ∀ c ∈ blanks, isBlank c = true) (hc : isBlank c = false) :
    d.EndsBefore (blanks ++ c :: after) ↔ Stops (text ++ blanks) d.meaning c := by
  obtain ⟨name, args, suffixes⟩ := d
  have heat : ∀ m : Char, eat m (blanks ++ c :: after) = none ↔ c ≠ m := by
    intro m
    rw [eat_eq_none_iff, upcoming_append hblanks, upcoming_cons hc, ne_eq, Option.some.injEq]
  have hplain : (∃ n, (Derivation.expr name args suffixes).meaning = .named n []) ↔
      args = [] ∧ suffixes = [] := meaning_eq_named_nil_iff
  have hname : (args = [] → suffixes = [] → ∀ x ∈ (blanks ++ c :: after).head?,
      isNameChar x = false) ↔ (isNameChar c = true → ∀ x ∈ (text ++ blanks).getLast?,
        isNameChar x = false) := not_isNameChar_iff htext hblanks
  rw [Derivation.EndsBefore, heat, heat, heat]
  constructor
  · rintro ⟨hleft, hquestion, halone⟩
    refine ⟨⟨hleft, hquestion⟩, ?_, hname.1 fun hargs hsuffixes => (halone hargs hsuffixes).2⟩
    rintro rfl n hn
    obtain ⟨hargs, hsuffixes⟩ := hplain.1 ⟨n, hn⟩
    exact (halone hargs hsuffixes).1 rfl
  · rintro ⟨⟨hleft, hquestion⟩, harguments, hlonger⟩
    refine ⟨hleft, hquestion, fun hargs hsuffixes => ⟨?_, hname.2 hlonger hargs hsuffixes⟩⟩
    rintro rfl
    obtain ⟨n, hn⟩ := hplain.2 ⟨hargs, hsuffixes⟩
    exact harguments rfl n hn

end Stops

/-! ## Places of names -/

/-- After the text a name should stand as an argument: it consists of arguments with a comma behind
each, and of such a place in the next one. -/
def AwaitsArgument (cs : List Char) : Prop :=
  ∃ args text later, cs = text ++ later ∧ Spells (commaTokens args) text ∧ Awaits later

/-- The fault is one inside a text that is read. No text is left, and a missing name is one after
`before`, which is a `place` for it: what remains begins with no blank and no character of names. -/
def Fault.IsAt (place : List Char → Prop) (cs : List Char) : Fault → Prop
  | .trailing _ => False
  | .missingName rest => ∃ before, place before ∧ cs = before ++ rest ∧
    ∀ c ∈ rest.head?, isBlank c = false ∧ isNameChar c = false
  | .malformedName _ | .openArguments | .openArray => True

theorem Fault.IsAt.append {place place' : List Char → Prop} {cs : List Char} {fault : Fault}
    (h : fault.IsAt place cs) (text : List Char)
    (hplace : ∀ before, place before → place' (text ++ before)) :
    fault.IsAt place' (text ++ cs) := by
  match fault with
  | .trailing _ => exact h
  | .missingName rest =>
    obtain ⟨before, hbefore, rfl, hrest⟩ := h
    exact ⟨text ++ before, hplace before hbefore, (List.append_assoc ..).symm, hrest⟩
  | .malformedName _ | .openArguments | .openArray => trivial

theorem readName_error {cs : List Char} {fault : Fault} (h : readName cs = .error fault) :
    fault.IsAt Awaits cs := by
  simp only [readName] at h
  split at h
  · rename_i hempty
    obtain rfl := Except.error.inj h
    obtain ⟨blanks, hblanks, hcs⟩ := exists_dropBlanks cs
    refine ⟨blanks, .start hblanks, hcs, fun c hc => ?_⟩
    obtain ⟨rest, hrest⟩ := List.head?_eq_some_iff.1 (Option.mem_def.1 hc)
    have hblank := List.head?_dropWhile_not isBlank cs
    rw [← dropBlanks, hrest] at hblank
    refine ⟨hblank, ?_⟩
    rw [hrest, List.takeWhile_cons] at hempty
    cases hname : isNameChar c with
    | false => rfl
    | true => simp [hname] at hempty
  · split at h
    · cases h
    · obtain rfl := Except.error.inj h
      trivial

theorem readSuffixes_error {fuel : Nat} {e : TypeExpr} {cs : List Char} {fault : Fault}
    (h : readSuffixes fuel e cs = .error fault) : fault = .openArray := by
  induction fuel generalizing e cs with
  | zero => cases h
  | succ fuel ih =>
    rw [readSuffixes] at h
    split at h
    · split at h
      · exact ih h
      · exact (Except.error.inj h).symm
    · split at h
      · exact ih h
      · cases h

/-- Where reading fails inside an expression or inside arguments for a missing name, one should
stand. The fuel is never used up, since a name and a mark take a character at least. -/
theorem read_error (fuel : Nat) :
    (∀ {cs : List Char} {fault : Fault}, 2 * cs.length < fuel →
      readExpr fuel cs = .error fault → fault.IsAt Awaits cs) ∧
    ∀ {cs : List Char} {fault : Fault}, 2 * cs.length + 1 < fuel →
      readArguments fuel cs = .error fault → fault.IsAt AwaitsArgument cs := by
  induction fuel with
  | zero => exact ⟨fun h => absurd h (Nat.not_lt_zero _), fun h => absurd h (Nat.not_lt_zero _)⟩
  | succ fuel ih =>
    constructor
    · intro cs fault hfuel h
      rw [readExpr] at h
      split at h
      · rename_i hname
        obtain rfl := Except.error.inj h
        exact readName_error hname
      · rename_i hname
        obtain ⟨_, hlength⟩ := suffix_of_readName hname
        split at h
        · rw [readSuffixes_error h]
          trivial
        · rename_i hless
          obtain ⟨_, hlength'⟩ := suffix_of_eat .lessThan hless
          split at h
          · rename_i hargs
            obtain rfl := Except.error.inj h
            have hinner := ih.2 (by omega) hargs
            obtain ⟨_, rfl, hmark⟩ := spells_of_eat .lessThan
              (show eat '<' _ = some ([] ++ _) from hless) .nil
            obtain ⟨name, rfl, text, rfl, htext⟩ := spells_of_readName hname hmark
            refine hinner.append text fun before hbefore => ?_
            obtain ⟨args, first, later, rfl, hfirst, hlater⟩ := hbefore
            rw [← List.append_assoc]
            exact .argument (htext.append hfirst) hlater
          · rw [readSuffixes_error h]
            trivial
    · intro cs fault hfuel h
      rw [readArguments] at h
      split at h
      · rename_i harg
        obtain rfl := Except.error.inj h
        exact (ih.1 (by omega) harg).append [] fun before hbefore =>
          ⟨[], [], before, rfl, .nil, hbefore⟩
      · rename_i harg
        obtain ⟨d, text, rfl, htext, _⟩ := (read_sound fuel).1 harg
        split at h
        · rename_i hcomma
          obtain ⟨_, hlength⟩ := suffix_of_eat .comma hcomma
          rw [List.length_append] at hfuel
          split at h
          · rename_i hargs
            obtain rfl := Except.error.inj h
            have hinner := ih.2 (by omega) hargs
            obtain ⟨mark, rfl, hmark⟩ := spells_of_eat .comma
              (show eat ',' _ = some ([] ++ _) from hcomma) .nil
            rw [← List.append_assoc]
            refine hinner.append (text ++ mark) fun before hbefore => ?_
            obtain ⟨args, first, later, rfl, hfirst, hlater⟩ := hbefore
            refine ⟨d :: args, text ++ mark ++ first, later, ?_, ?_, hlater⟩
            · simp only [List.append_assoc]
            · exact (htext.append hmark).append hfirst
          · cases h
        · split at h
          · cases h
          · obtain rfl := Except.error.inj h
            trivial

/-- Arguments with a comma behind each are read, and reading goes on behind them. -/
theorem readArguments_of_commas {args : List Derivation} {text rest : List Char} {fault : Fault}
    (h : Spells (commaTokens args) text)
    (hrest : ∀ fuel, 2 * rest.length < fuel → readExpr fuel rest = .error fault) {fuel : Nat}
    (hfuel : 2 * (text ++ rest).length + 1 < fuel) :
    readArguments fuel (text ++ rest) = .error fault := by
  induction args generalizing text fuel with
  | nil =>
    obtain ⟨fuel, rfl⟩ : ∃ f, fuel = f + 1 := Nat.exists_eq_add_one.2 (by omega)
    rw [spells_nil_iff.1 h, List.nil_append] at hfuel ⊢
    rw [readArguments, hrest fuel (by omega)]
  | cons d ds ih =>
    rw [commaTokens, List.flatMap_cons, List.append_assoc, List.singleton_append] at h
    obtain ⟨first, last, rfl, hfirst, hlast⟩ := spells_append_iff.1 h
    obtain ⟨later, hlater, hlength, hcomma⟩ := eat_of_spells (m := .comma) hlast rest
    simp only [List.length_append] at hfuel
    obtain ⟨fuel, rfl⟩ : ∃ f, fuel = f + 1 := Nat.exists_eq_add_one.2 (by omega)
    have hends : Ends (last ++ rest) := @ends_of_separator [d] _ _ hlast rest
    have harg := readExpr_of_spells d hfirst hends (show 2 * first.length ≤ fuel by omega)
    have hargs := ih hlater (show 2 * (later ++ rest).length + 1 < fuel by
      rw [List.length_append]; omega)
    change eat ',' _ = _ at hcomma
    rw [List.append_assoc, readArguments]
    simp only [harg, hcomma, hargs]

theorem readName_missing {blanks rest : List Char} (hblanks : ∀ c ∈ blanks, isBlank c = true)
    (hrest : ∀ c ∈ rest.head?, isBlank c = false ∧ isNameChar c = false) :
    readName (blanks ++ rest) = .error (.missingName rest) := by
  have hdrop : dropBlanks (blanks ++ rest) = rest := by
    rw [dropBlanks_append hblanks]
    cases rest with
    | nil => rfl
    | cons c rest => exact dropBlanks_of_not_isBlank (hrest c rfl).1 rest
  have hname : rest.takeWhile isNameChar = [] := by
    cases rest with
    | nil => rfl
    | cons c rest => exact List.takeWhile_cons_of_neg (by simp [(hrest c rfl).2])
  simp only [readName, hdrop, hname, List.isEmpty_nil, if_true]

/-- A name is missing where one should stand and what follows begins with none. -/
theorem readExpr_of_awaits {before rest : List Char} (h : Awaits before)
    (hrest : ∀ c ∈ rest.head?, isBlank c = false ∧ isNameChar c = false) {fuel : Nat}
    (hfuel : 2 * (before ++ rest).length < fuel) :
    readExpr fuel (before ++ rest) = .error (.missingName rest) := by
  induction h generalizing fuel with
  | start hblanks =>
    obtain ⟨fuel, rfl⟩ : ∃ f, fuel = f + 1 := Nat.exists_eq_add_one.2 (by omega)
    rw [readExpr, readName_missing hblanks hrest]
  | @argument name args text later htext _ ih =>
    have hmark : ∀ n us, Token.mark .lessThan :: commaTokens args ≠ .name n :: us := by simp
    have hhead : Token.mark .lessThan :: commaTokens args = [] →
        ∀ c ∈ (later ++ rest).head?, isNameChar c = false := by simp
    obtain ⟨inner, hinner, hlength, hname⟩ := readName_of_spells hmark htext hhead
    obtain ⟨first, hfirst, hlength', hless⟩ :=
      eat_of_spells (m := .lessThan) hinner (later ++ rest)
    simp only [List.length_append] at hfuel
    obtain ⟨fuel, rfl⟩ : ∃ f, fuel = f + 1 := Nat.exists_eq_add_one.2 (by omega)
    have hargs := readArguments_of_commas hfirst (fun _ => ih)
      (show 2 * (first ++ (later ++ rest)).length + 1 < fuel by
        simp only [List.length_append]; omega)
    change eat '<' _ = _ at hless
    rw [List.append_assoc, readExpr]
    simp only [hname, hless, hargs]

/-! ## Whole texts -/

/-- A text is refused for what follows its expression exactly if all before that is an expression
of its own, which what follows does not continue. -/
theorem parseChars_eq_trailing_iff {cs rest : List Char} {c : Char} :
    parseChars cs = .error (.trailing (c :: rest)) ↔
      ∃ before e, cs = before ++ c :: rest ∧ isBlank c = false ∧ parseChars before = .ok e ∧
        Stops before e c := by
  constructor
  · intro h
    unfold parseChars at h
    split at h
    · rename_i hread
      rw [Except.error.inj h] at hread
      exact ((read_error _).1 (by omega) hread).elim
    · rename_i e later hread
      obtain ⟨d, text, rfl, htext, rfl, hends⟩ := readExpr_sound (read_sound _).2 hread
      obtain ⟨blanks, hblanks, hsplit⟩ := exists_dropBlanks later
      have hhead := List.head?_dropWhile_not isBlank later
      rw [← dropBlanks] at hhead
      cases hrest : dropBlanks later with
      | nil => simp [hrest] at h
      | cons d' later' =>
        simp only [hrest, Except.error.injEq, Fault.trailing.injEq, List.cons.injEq] at h
        obtain ⟨rfl, rfl⟩ := h
        rw [hrest] at hsplit hhead
        have hends := hends (by omega)
        rw [hsplit] at hends
        refine ⟨text ++ blanks, d.meaning, ?_, hhead, ?_, ?_⟩
        · rw [List.append_assoc, ← hsplit]
        · exact parseChars_of_derives ⟨text, blanks, rfl, htext, hblanks⟩
        · exact (endsBefore_iff_stops htext hblanks hhead).1 hends
  · rintro ⟨before, e, rfl, hblank, hbefore, hstops⟩
    obtain ⟨d, ⟨text, blanks, rfl, htext, hblanks⟩, rfl⟩ := exists_of_parseChars hbefore
    have hends : d.EndsBefore (blanks ++ c :: rest) :=
      (endsBefore_iff_stops htext hblanks hblank).2 hstops
    have hread := readExpr_of_endsBefore d htext hends
      (show 2 * text.length ≤ 2 * (text ++ (blanks ++ c :: rest)).length + 2 by
        rw [List.length_append]; omega)
    have hrest : dropBlanks (blanks ++ c :: rest) = c :: rest := by
      rw [dropBlanks_append hblanks, dropBlanks_of_not_isBlank hblank]
    rw [List.append_assoc]
    simp only [parseChars, hread, hrest]

/-- A text is refused for a missing name exactly if one should stand where something else does. -/
theorem parseChars_eq_missingName_iff {cs rest : List Char} :
    parseChars cs = .error (.missingName rest) ↔
      ∃ before, cs = before ++ rest ∧ Awaits before ∧
        ∀ c ∈ rest.head?, isBlank c = false ∧ isNameChar c = false := by
  constructor
  · intro h
    unfold parseChars at h
    split at h
    · rename_i hread
      rw [Except.error.inj h] at hread
      obtain ⟨before, hbefore, hcs, hrest⟩ := (read_error _).1 (by omega) hread
      exact ⟨before, hcs, hbefore, hrest⟩
    · split at h <;> cases h
  · rintro ⟨before, rfl, hbefore, hrest⟩
    have hread := readExpr_of_awaits hbefore hrest
      (show 2 * (before ++ rest).length < 2 * (before ++ rest).length + 2 by omega)
    simp only [parseChars, hread]

/-- What remains of a text stands at its offset. -/
theorem hasAt_of_suffix {s : String} {before rest : List Char} {c : Char}
    (h : s.toList = before ++ c :: rest) :
    HasAt s (Fault.reason.offset s.toList (c :: rest)) c (String.ofList before) where
  exists_after := by
    refine ⟨String.ofList rest, String.toList_inj.1 ?_⟩
    rw [h, String.toList_append, String.toList_append, Char.toString, String.toList_singleton,
      String.toList_ofList, String.toList_ofList]
    simp
  utf8ByteSize_eq := by
    rw [← byteLength_toList, String.toList_ofList, Fault.reason.offset, h, byteLength_append,
      Nat.add_sub_cancel]

/-- What stands at an offset remains of the text there. -/
theorem HasAt.exists_rest {s before : String} {c : Char} {offset : Nat}
    (h : HasAt s offset c before) :
    ∃ rest, s.toList = before.toList ++ c :: rest ∧
      Fault.reason.offset s.toList (c :: rest) = offset := by
  obtain ⟨after, hs⟩ := h.exists_after
  have htoList : s.toList = before.toList ++ c :: after.toList := by
    rw [hs, String.toList_append, String.toList_append, Char.toString, String.toList_singleton]
    simp
  refine ⟨after.toList, htoList, ?_⟩
  rw [Fault.reason.offset, htoList, byteLength_append, Nat.add_sub_cancel, byteLength_toList,
    h.utf8ByteSize_eq]

/-- A reason names an offset and a character exactly if the text has that character there, which is
not blank. If the text goes on there after an expression, all before it is one of its own, which
the character does not continue; if a name should stand there, none begins with the character. -/
theorem reason_eq_iff (s : String) (c : Char) (offset : Nat) :
    ((∃ fault, parse s = .error fault ∧ fault.reason s.toList = unexpected c offset) ↔
      ∃ before, HasAt s offset c before ∧ isBlank c = false ∧
        ∃ e, parse before = .ok e ∧ Stops before.toList e c) ∧
    ((∃ fault, parse s = .error fault ∧ fault.reason s.toList = expectedName c offset) ↔
      ∃ before, HasAt s offset c before ∧ isBlank c = false ∧ isNameChar c = false ∧
        Awaits before.toList) := by
  refine ⟨⟨?_, ?_⟩, ?_, ?_⟩
  · rintro ⟨fault, hfault, hreason⟩
    obtain ⟨rest, rfl, rfl⟩ := exists_trailing_of_reason hreason
    obtain ⟨before, e, hs, hblank, hbefore, hstops⟩ := parseChars_eq_trailing_iff.1 hfault
    refine ⟨String.ofList before, hasAt_of_suffix hs, hblank, e, ?_⟩
    rw [parse, String.toList_ofList]
    exact ⟨hbefore, hstops⟩
  · rintro ⟨before, hat, hblank, e, hbefore, hstops⟩
    obtain ⟨rest, hs, rfl⟩ := hat.exists_rest
    exact ⟨.trailing (c :: rest),
      parseChars_eq_trailing_iff.2 ⟨before.toList, e, hs, hblank, hbefore, hstops⟩, rfl⟩
  · rintro ⟨fault, hfault, hreason⟩
    obtain ⟨rest, rfl, rfl⟩ := exists_missingName_of_reason hreason
    obtain ⟨before, hs, hbefore, hrest⟩ := parseChars_eq_missingName_iff.1 hfault
    obtain ⟨hblank, hname⟩ := hrest c rfl
    refine ⟨String.ofList before, hasAt_of_suffix hs, hblank, hname, ?_⟩
    rw [String.toList_ofList]
    exact hbefore
  · rintro ⟨before, hat, hblank, hname, hbefore⟩
    obtain ⟨rest, hs, rfl⟩ := hat.exists_rest
    have hrest : ∀ d ∈ (c :: rest).head?, isBlank d = false ∧ isNameChar d = false := by
      rintro d ⟨⟩
      exact ⟨hblank, hname⟩
    exact ⟨.missingName (c :: rest),
      parseChars_eq_missingName_iff.2 ⟨before.toList, hs, hbefore, hrest⟩, rfl⟩

/-- A letter of two bytes and the blank before the character count. -/
example : (match parse "Café €" with
    | .error fault => fault.reason "Café €".toList
    | .ok _ => "") = unexpected '€' 6 := by decide +kernel

/-- Blanks count where a name is missing too. -/
example : (match parse "Café<\u00a0€" with
    | .error fault => fault.reason "Café<\u00a0€".toList
    | .ok _ => "") = expectedName '€' 8 := by decide +kernel

end TypeExpr

end ApiClient
