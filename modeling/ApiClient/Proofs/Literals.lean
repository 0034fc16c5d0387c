import ApiClient.Toml.Quoted
import ApiClient.TypeScript.Literal
import Mathlib.Logic.Function.Basic

/-!
# String literals

What a literal between single quotes means to a reader of generated code: it ends at the first quote
that no backslash escapes, it holds no line break, and its value is a list of code units, in which
characters beyond the first plane take two. Escapes are those of code that is read strictly, so
those of octal numbers are refused.

Results:
* `value_injective`: the code units tell the text.
* `readBody_spec`: what is read has as many code units as it has characters, unless one is escaped.
* `isLiteral_quote`: only the two ends of what is written for a text are unescaped quotes, and it is
  read as the text, whatever follows.
* `quote_injective`: different texts have different literals.
* `read_quoted_iff`: a text between quotes, as it is, is read as itself exactly if it is plain.
-/

namespace ApiClient.TypeScript

/-! ## Specification -/

namespace Literal

/-- The code units of a code point. -/
def codeUnits (n : Nat) : List Nat :=
  if n < 0x10000 then [n] else [0xd800 + (n - 0x10000) / 0x400, 0xdc00 + (n - 0x10000) % 0x400]

/-- The code units of a text. -/
def value (cs : List Char) : List Nat :=
  cs.flatMap fun c => codeUnits c.toNat

/-- The number of hexadecimal digits. -/
def hexNumber? (digits : List Char) : Option Nat :=
  digits.foldlM (fun n c => (Toml.hexValue? c).map (n * 16 + ·)) 0

/-- Reads a code point after its letter: four digits, or any number of them between braces. -/
def readCodePoint : List Char → Option (Nat × List Char)
  | '\x7b' :: cs =>
    match cs.dropWhile fun c => (Toml.hexValue? c).isSome with
    | '\x7d' :: rest =>
      let digits := cs.takeWhile fun c => (Toml.hexValue? c).isSome
      (hexNumber? digits).bind fun n =>
        if digits ≠ [] ∧ n ≤ 0x10ffff then some (n, rest) else none
    | _ => none
  | a :: b :: c :: d :: rest => (hexNumber? [a, b, c, d]).map fun n => (n, rest)
  | _ => none

/-- What a letter stands for after a backslash; most characters stand for themselves. -/
def control (c : Char) : Char :=
  match c with
  | 'b' => '\x08'
  | 't' => '\t'
  | 'n' => '\n'
  | 'v' => '\x0b'
  | 'f' => '\x0c'
  | 'r' => '\r'
  | c => c

/-- A character that ends a line of code. -/
def isLineBreak (c : Char) : Bool :=
  c == '\n' || c == '\r' || c == '\u2028' || c == '\u2029'

/-- Reads an escape after its backslash: its code units and what follows. An escaped line break
stands for nothing. -/
def readEscape : List Char → Option (List Nat × List Char)
  | [] => none
  | '\r' :: '\n' :: cs => some ([], cs)
  | 'x' :: a :: b :: cs => (hexNumber? [a, b]).map fun n => (codeUnits n, cs)
  | 'u' :: cs => (readCodePoint cs).map fun (n, rest) => (codeUnits n, rest)
  | c :: cs =>
    if c = 'x' then none
    else if isLineBreak c then some ([], cs)
    else if c = '0' ∧ cs.head?.any Char.isDigit = false then some ([0], cs)
    else if c.isDigit then none
    else some (codeUnits (control c).toNat, cs)

theorem length_codeUnits (n : Nat) : 1 ≤ (codeUnits n).length ∧ (codeUnits n).length ≤ 2 := by
  unfold codeUnits
  split <;> simp

theorem length_le_length_value (cs : List Char) : cs.length ≤ (value cs).length := by
  induction cs with
  | nil => exact Nat.le_refl _
  | cons c cs ih =>
    have := (length_codeUnits c.toNat).1
    rw [value, List.flatMap_cons, List.length_append, List.length_cons, ← value]
    omega

theorem length_codeUnits_control (c : Char) :
    (codeUnits (control c).toNat).length ≤ (codeUnits c.toNat).length := by
  have := (length_codeUnits c.toNat).1
  unfold control
  split <;> first | exact this | exact Nat.le_refl _

/-- The two characters that an escape needs at least are enough for the units of a code point. -/
theorem length_codeUnits_le {used : List Char} (n : Nat) (h : 2 ≤ used.length) :
    (codeUnits n).length ≤ (value used).length :=
  Nat.le_trans (Nat.le_trans (length_codeUnits n).2 h) (length_le_length_value used)

theorem readCodePoint_spec {cs rest : List Char} {n : Nat}
    (h : readCodePoint cs = some (n, rest)) : ∃ used, cs = used ++ rest ∧ 2 ≤ used.length := by
  unfold readCodePoint at h
  split at h
  · rename_i cs
    split at h
    · rename_i rest' hrest
      obtain ⟨m, _, h⟩ := Option.bind_eq_some_iff.1 h
      split at h
      · obtain ⟨rfl, rfl⟩ := Prod.mk.inj (Option.some.inj h)
        refine ⟨'\x7b' :: cs.takeWhile (fun c => (Toml.hexValue? c).isSome) ++ ['\x7d'], ?_, ?_⟩
        · rw [List.append_assoc, List.cons_append, List.singleton_append, ← hrest,
            List.takeWhile_append_dropWhile]
        · simp
      · cases h
    · cases h
  · rename_i a b c d rest' _
    obtain ⟨m, _, h⟩ := Option.map_eq_some_iff.1 h
    obtain ⟨rfl, rfl⟩ := Prod.mk.inj h
    exact ⟨[a, b, c, d], rfl, by simp⟩
  · cases h

/-- What an escape needs: at least one character, and as many code units as it stands for. -/
theorem readEscape_spec {cs rest : List Char} {units : List Nat}
    (h : readEscape cs = some (units, rest)) :
    ∃ used, cs = used ++ rest ∧ used ≠ [] ∧ units.length ≤ (value used).length := by
  unfold readEscape at h
  split at h
  · cases h
  · obtain ⟨rfl, rfl⟩ := Prod.mk.inj (Option.some.inj h)
    exact ⟨['\r', '\n'], rfl, by simp, Nat.zero_le _⟩
  · rename_i a b cs
    obtain ⟨n, _, h⟩ := Option.map_eq_some_iff.1 h
    obtain ⟨rfl, rfl⟩ := Prod.mk.inj h
    exact ⟨['x', a, b], rfl, by simp, length_codeUnits_le n (by simp)⟩
  · rename_i cs
    obtain ⟨⟨n, rest'⟩, hread, h⟩ := Option.map_eq_some_iff.1 h
    obtain ⟨rfl, rfl⟩ := Prod.mk.inj h
    obtain ⟨used, rfl, hlength⟩ := readCodePoint_spec hread
    exact ⟨'u' :: used, rfl, by simp, length_codeUnits_le n (Nat.le_succ_of_le hlength)⟩
  · rename_i c cs _ _ _
    -- In all other cases the escape is of one character.
    have hone : ∀ units', some (units', cs) = some (units, rest) →
        units'.length ≤ (codeUnits c.toNat).length →
        ∃ used, c :: cs = used ++ rest ∧ used ≠ [] ∧ units.length ≤ (value used).length := by
      intro units' he hlength
      obtain ⟨rfl, rfl⟩ := Prod.mk.inj (Option.some.inj he)
      exact ⟨[c], rfl, by simp, by simpa [value] using hlength⟩
    split at h
    · cases h
    · split at h
      · exact hone _ h (Nat.zero_le _)
      · split at h
        · exact hone _ h (length_codeUnits c.toNat).1
        · split at h
          · cases h
          · exact hone _ h (length_codeUnits_control c)

theorem length_of_readEscape {cs rest : List Char} {units : List Nat}
    (h : readEscape cs = some (units, rest)) : rest.length < cs.length := by
  obtain ⟨used, rfl, hne, _⟩ := readEscape_spec h
  have := List.length_pos_iff.2 hne
  rw [List.length_append]
  omega

/-- Reads the rest of a literal: the code units up to the quote that ends it, and what follows. -/
def readBody (cs : List Char) : Option (List Nat × List Char) :=
  match cs with
  | [] => none
  | '\'' :: cs => some ([], cs)
  | '\\' :: cs =>
    match _hread : readEscape cs with
    | none => none
    | some (units, cs) => (readBody cs).map fun (more, rest) => (units ++ more, rest)
  | c :: cs =>
    if c = '\n' ∨ c = '\r' then none
    else (readBody cs).map fun (more, rest) => (codeUnits c.toNat ++ more, rest)
termination_by cs.length
decreasing_by
  · have := length_of_readEscape _hread
    rw [List.length_cons]
    omega
  · simp

/-- Reads a literal between single quotes. -/
def read : List Char → Option (List Nat × List Char)
  | '\'' :: cs => readBody cs
  | _ => none

/-- The places of quotes that no backslash escapes. -/
def unescapedQuotes : List Char → List Nat
  | [] => []
  | '\\' :: _ :: cs => (unescapedQuotes cs).map (· + 2)
  | c :: cs =>
    if c = '\'' then 0 :: (unescapedQuotes cs).map (· + 1) else (unescapedQuotes cs).map (· + 1)

/-- A character that stands for itself in a literal. -/
def IsPlain (c : Char) : Prop :=
  c ≠ '\'' ∧ c ≠ '\\' ∧ c ≠ '\n' ∧ c ≠ '\r'

instance (c : Char) : Decidable (IsPlain c) :=
  inferInstanceAs (Decidable (_ ∧ _))

/-! ## Code units -/

/-- No code units are the beginning of those of another character. -/
theorem codeUnits_append_inj {c d : Char} {us vs : List Nat}
    (h : codeUnits c.toNat ++ us = codeUnits d.toNat ++ vs) : c = d ∧ us = vs := by
  have hc : c.toNat < 0xd800 ∨ 0xdfff < c.toNat ∧ c.toNat < 0x110000 := c.valid
  have hd : d.toNat < 0xd800 ∨ 0xdfff < d.toNat ∧ d.toNat < 0x110000 := d.valid
  have hnumbers : c.toNat = d.toNat ∧ us = vs := by
    unfold codeUnits at h
    -- No character is a surrogate, so units of characters beyond the first plane are no characters.
    by_cases hcplane : c.toNat < 0x10000 <;> by_cases hdplane : d.toNat < 0x10000 <;>
      simp only [hcplane, hdplane, if_true, if_false, List.cons_append, List.nil_append,
        List.cons.injEq] at h
    · exact h
    · omega
    · omega
    · exact ⟨by omega, h.2.2⟩
  exact ⟨Char.toNat_inj.1 hnumbers.1, hnumbers.2⟩

theorem value_injective : Function.Injective value := by
  intro cs ds h
  induction cs generalizing ds with
  | nil =>
    have := length_le_length_value ds
    rw [← h] at this
    exact (List.length_eq_zero_iff.1 (Nat.le_zero.1 this)).symm
  | cons c cs ih =>
    cases ds with
    | nil =>
      have := length_le_length_value (c :: cs)
      rw [h] at this
      exact absurd this (Nat.not_succ_le_zero _)
    | cons d ds =>
      obtain ⟨rfl, hrest⟩ := codeUnits_append_inj h
      rw [ih hrest]

/-! ## Reading -/

variable {c : Char} {cs rest : List Char} {units : List Nat}

theorem readBody_end : readBody ('\'' :: cs) = some ([], cs) := by
  rw [readBody]

theorem readBody_backslash : readBody ('\\' :: cs) = (readEscape cs).bind fun (units, cs) =>
    (readBody cs).map fun (more, rest) => (units ++ more, rest) := by
  rw [readBody]
  split
  · rename_i h
    rw [h]
    rfl
  · rename_i h
    rw [h]
    rfl

theorem readBody_lineBreak (h : c = '\n' ∨ c = '\r') : readBody (c :: cs) = none := by
  rcases h with rfl | rfl <;> simp [readBody]

theorem readBody_plain (h : IsPlain c) : readBody (c :: cs) =
    (readBody cs).map fun (more, rest) => (codeUnits c.toNat ++ more, rest) := by
  obtain ⟨hquote, hback, hfeed, hreturn⟩ := h
  rw [readBody]
  · simp [hfeed, hreturn]
  · exact hquote
  · exact hback

/-- What is written for a character is read as its code units. -/
theorem readBody_escape_append (c : Char) (cs : List Char) : readBody (escape c ++ cs) =
    (readBody cs).map fun (more, rest) => (codeUnits c.toNat ++ more, rest) := by
  unfold escape
  split
  · simp [readBody_backslash, readEscape, isLineBreak, control]
  · simp [readBody_backslash, readEscape, isLineBreak, control]
  · simp [readBody_backslash, readEscape, isLineBreak, control]
  · simp [readBody_backslash, readEscape, isLineBreak, control]
  · rename_i hback hquote hfeed hreturn
    exact readBody_plain ⟨hquote, hback, hfeed, hreturn⟩

theorem readBody_flatMap_escape (cs rest : List Char) :
    readBody (cs.flatMap escape ++ '\'' :: rest) = some (value cs, rest) := by
  induction cs with
  | nil => exact readBody_end
  | cons c cs ih =>
    rw [List.flatMap_cons, List.append_assoc, readBody_escape_append, ih]
    rfl

/-- What is read up to the closing quote has at most as many units as characters stand there, and
fewer of them if one is escaped. -/
theorem readBody_spec (h : readBody cs = some (units, rest)) : ∃ used, cs = used ++ '\'' :: rest ∧
    units.length ≤ (value used).length ∧ (units = value used → ∀ c ∈ used, IsPlain c) := by
  induction cs using readBody.induct generalizing units with
  | case1 => simp [readBody] at h
  | case2 cs =>
    rw [readBody_end] at h
    obtain ⟨rfl, rfl⟩ := Prod.mk.inj (Option.some.inj h)
    exact ⟨[], rfl, Nat.le_refl _, by simp⟩
  | case3 cs hread =>
    rw [readBody_backslash, hread] at h
    cases h
  | case4 cs escaped after hread ih =>
    rw [readBody_backslash, hread, Option.bind_some] at h
    obtain ⟨⟨more, rest'⟩, hmore, h⟩ := Option.map_eq_some_iff.1 h
    obtain ⟨rfl, rfl⟩ := Prod.mk.inj h
    obtain ⟨used, rfl, _, hlength⟩ := readEscape_spec hread
    obtain ⟨used', rfl, hlength', _⟩ := ih hmore
    -- The backslash is one unit that the escape does not stand for.
    have hless : (escaped ++ more).length < (value ('\\' :: (used ++ used'))).length := by
      have := (length_codeUnits '\\'.toNat).1
      rw [value, List.flatMap_cons, List.flatMap_append, ← value, ← value]
      simp only [List.length_append]
      omega
    refine ⟨'\\' :: (used ++ used'), by simp, Nat.le_of_lt hless, fun he => ?_⟩
    rw [he] at hless
    exact absurd hless (Nat.lt_irrefl _)
  | case5 c cs _ _ hbreak =>
    rw [readBody_lineBreak hbreak] at h
    cases h
  | case6 c cs hquote hback hbreak ih =>
    rw [not_or] at hbreak
    have hplain : IsPlain c := ⟨hquote, hback, hbreak.1, hbreak.2⟩
    rw [readBody_plain hplain] at h
    obtain ⟨⟨more, rest'⟩, hmore, h⟩ := Option.map_eq_some_iff.1 h
    obtain ⟨rfl, rfl⟩ := Prod.mk.inj h
    obtain ⟨used, rfl, hlength, hused⟩ := ih hmore
    refine ⟨c :: used, rfl, ?_, fun he => List.forall_mem_cons.2 ⟨hplain, hused ?_⟩⟩
    · rw [value, List.flatMap_cons, ← value]
      simp only [List.length_append]
      omega
    · rw [value, List.flatMap_cons, ← value] at he
      exact List.append_cancel_left he

theorem flatMap_escape_of_isPlain (h : ∀ c ∈ cs, IsPlain c) : cs.flatMap escape = cs := by
  induction cs with
  | nil => rfl
  | cons c cs ih =>
    obtain ⟨⟨hquote, hback, hfeed, hreturn⟩, hcs⟩ := List.forall_mem_cons.1 h
    have hc : escape c = [c] := by
      unfold escape
      split <;> first | rfl | contradiction
    rw [List.flatMap_cons, hc, ih hcs]
    rfl

/-- A text between quotes, as it is, is read as itself exactly if it is plain. -/
theorem read_quoted_iff : read ('\'' :: (cs ++ '\'' :: rest)) = some (value cs, rest) ↔
    ∀ c ∈ cs, IsPlain c := by
  constructor
  · intro h
    obtain ⟨used, hused, _, hplain⟩ := readBody_spec h
    obtain rfl := List.append_cancel_right hused
    exact hplain rfl
  · intro h
    have hread := readBody_flatMap_escape cs rest
    rwa [flatMap_escape_of_isPlain h] at hread

/-! ## Quotes -/

theorem unescapedQuotes_escape_append (c : Char) (cs : List Char) :
    unescapedQuotes (escape c ++ cs) = (unescapedQuotes cs).map (· + (escape c).length) := by
  unfold escape
  split
  · rfl
  · rfl
  · rfl
  · rfl
  · rename_i hback hquote _ _
    rw [List.singleton_append, unescapedQuotes, if_neg hquote]
    · rfl
    · exact fun _ _ hc => absurd hc hback

/-- Only the closing quote of what is written for a text is not escaped. -/
theorem unescapedQuotes_flatMap_escape (cs : List Char) :
    unescapedQuotes (cs.flatMap escape ++ ['\'']) = [(cs.flatMap escape).length] := by
  induction cs with
  | nil => rfl
  | cons c cs ih =>
    rw [List.flatMap_cons, List.append_assoc, unescapedQuotes_escape_append, ih, List.length_append]
    simp [Nat.add_comm]

end Literal

open Literal

/-! ## Literals -/

/-- The text is a literal of a value between single quotes, on one line: only its two ends are
quotes that are not escaped, and it is read as the value whatever follows. -/
structure IsLiteral (text value : String) : Prop where
  unescapedQuotes_eq : unescapedQuotes text.toList = [0, text.toList.length - 1]
  no_lineFeed : '\n' ∉ text.toList
  no_return : '\r' ∉ text.toList
  read_append : ∀ rest, Literal.read (text.toList ++ rest) = some (Literal.value value.toList, rest)

theorem toList_quote (s : String) :
    (quote s).toList = '\'' :: (s.toList.flatMap escape ++ ['\'']) := by
  rw [quote, String.toList_ofList]
  rfl

theorem lineBreak_not_mem_escape {b : Char} (hb : b = '\n' ∨ b = '\r') (c : Char) :
    b ∉ escape c := by
  unfold escape
  rcases hb with rfl | rfl <;> split <;> simp_all [eq_comm]

theorem isLiteral_quote (s : String) : IsLiteral (quote s) s := by
  have hbreak : ∀ b, b = '\n' ∨ b = '\r' → b ∉ (quote s).toList := by
    intro b hb hmem
    have hquote : b ≠ '\'' := by
      rcases hb with rfl | rfl <;> decide
    rw [toList_quote, List.mem_cons, List.mem_append, List.mem_singleton, List.mem_flatMap] at hmem
    obtain hmem | ⟨c, _, hmem⟩ | hmem := hmem
    · exact hquote hmem
    · exact lineBreak_not_mem_escape hb c hmem
    · exact hquote hmem
  refine ⟨?_, hbreak _ (.inl rfl), hbreak _ (.inr rfl), fun rest => ?_⟩
  · rw [toList_quote, unescapedQuotes, if_pos rfl, unescapedQuotes_flatMap_escape]
    · simp
    · exact fun _ _ hc => absurd hc (by decide)
  · rw [toList_quote, List.cons_append, List.append_assoc]
    exact readBody_flatMap_escape s.toList rest

/-- A text is the literal of at most one value. -/
theorem IsLiteral.value_unique {text s s' : String} (h : IsLiteral text s)
    (h' : IsLiteral text s') : s = s' := by
  have hread := h.read_append []
  rw [h'.read_append, Option.some.injEq, Prod.mk.injEq] at hread
  exact String.toList_injective (value_injective hread.1).symm

theorem quote_injective : Function.Injective quote := fun s s' h =>
  (isLiteral_quote s).value_unique (h ▸ isLiteral_quote s')

/-- A text between quotes, as it is, is its own literal exactly if it is plain. -/
theorem quote_eq_iff {s : String} : quote s = "'" ++ s ++ "'" ↔ ∀ c ∈ s.toList, IsPlain c := by
  rw [← String.toList_inj, toList_quote]
  constructor
  · intro h
    have hbody : s.toList.flatMap escape = s.toList := by simpa using h
    have hread := readBody_flatMap_escape s.toList []
    rw [hbody] at hread
    exact read_quoted_iff.1 hread
  · intro h
    rw [flatMap_escape_of_isPlain h]
    simp

end ApiClient.TypeScript
