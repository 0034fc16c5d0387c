import ApiClient.Proofs.TypeExpr.Names

/-!
# The grammar of type expressions

    expr   := name args? suffix*
    args   := '<' expr (',' expr)* '>'
    suffix := '[' ']' | '?'

A `Derivation` is a tree over these rules. It has a list of tokens and a meaning, and a text is
derived by it if the text consists of the tokens with blanks before and after each of them. Nothing
here speaks of reading.

* `Derivation.tokens`, `Derivation.meaning`: the two sides of a derivation.
* `Spells`: a text of tokens with blanks before each of them.
* `Derivation.Derives`: the texts of a derivation.

Results:
* `spells_append_iff`: the texts of two lists of tokens one after the other.
* `wellNamed_meaning`: the names in what a derivation means are well formed.
-/

namespace ApiClient.TypeExpr

/-! ## Tokens -/

/-- A well-formed qualified name. -/
structure Name where
  text : String
  wellFormed : IsQualified text

/-- The marks of the grammar. -/
inductive Mark where
  | lessThan
  | comma
  | greaterThan
  | leftBracket
  | rightBracket
  | question
  deriving DecidableEq

/-- The character of a mark. -/
def Mark.char : Mark → Char
  | lessThan => '<'
  | comma => ','
  | greaterThan => '>'
  | leftBracket => '['
  | rightBracket => ']'
  | question => '?'

/-- What a text is made of besides blanks. -/
inductive Token where
  | name (n : Name)
  | mark (m : Mark)

/-- The characters of a token. -/
def Token.chars : Token → List Char
  | name n => n.text.toList
  | mark m => [m.char]

/-! ## Derivations -/

/-- The rule `suffix`. -/
inductive Suffix where
  | array
  | nullable
  deriving DecidableEq

namespace Suffix

/-- The tokens of a suffix. -/
def tokens : Suffix → List Token
  | array => [.mark .leftBracket, .mark .rightBracket]
  | nullable => [.mark .question]

/-- What a suffix makes of the expression before it. -/
def apply (e : TypeExpr) : Suffix → TypeExpr
  | array => .array e
  | nullable => e.nullable

end Suffix

/-- The rule `expr`. The list of arguments is empty exactly if there is no `args`. -/
inductive Derivation where
  | expr (name : Name) (args : List Derivation) (suffixes : List Suffix)

namespace Derivation

mutual
/-- The tokens of a derivation. -/
def tokens : Derivation → List Token
  | expr name [] suffixes => .name name :: suffixes.flatMap Suffix.tokens
  | expr name (a :: as) suffixes =>
    .name name :: .mark .lessThan :: (tokens a ++ laterTokens as ++ [.mark .greaterThan])
      ++ suffixes.flatMap Suffix.tokens
/-- The tokens of the arguments after the first one, a comma before each. -/
def laterTokens : List Derivation → List Token
  | [] => []
  | a :: as => .mark .comma :: tokens a ++ laterTokens as
end

mutual
/-- The expression that a derivation means: the suffixes apply from left to right. -/
def meaning : Derivation → TypeExpr
  | expr name args suffixes => suffixes.foldl Suffix.apply (.named name.text (meanings args))
/-- The expressions that derivations mean. -/
def meanings : List Derivation → List TypeExpr
  | [] => []
  | d :: ds => meaning d :: meanings ds
end

/-- The tokens of one or more arguments, up to the closing bracket. -/
def argumentTokens (a : Derivation) (as : List Derivation) : List Token :=
  tokens a ++ laterTokens as ++ [.mark .greaterThan]

/-- The tokens of a derivation after its name. -/
def laterThanName : List Derivation → List Suffix → List Token
  | [], suffixes => suffixes.flatMap Suffix.tokens
  | a :: as, suffixes =>
    .mark .lessThan :: argumentTokens a as ++ suffixes.flatMap Suffix.tokens

theorem tokens_expr (name : Name) (args : List Derivation) (suffixes : List Suffix) :
    (expr name args suffixes).tokens = .name name :: laterThanName args suffixes := by
  cases args <;> rfl

/-- The mark behind an argument, by the arguments that are left. -/
def separator : List Derivation → Mark
  | [] => .greaterThan
  | _ :: _ => .comma

/-- The tokens behind that mark. -/
def remainingTokens : List Derivation → List Token
  | [] => []
  | a :: as => argumentTokens a as

theorem argumentTokens_eq (a : Derivation) (as : List Derivation) :
    argumentTokens a as = tokens a ++ .mark (separator as) :: remainingTokens as := by
  cases as <;> simp [argumentTokens, laterTokens, separator, remainingTokens]

theorem induction {motive : Derivation → Prop}
    (expr : ∀ name args suffixes, (∀ d ∈ args, motive d) → motive (.expr name args suffixes)) :
    ∀ d, motive d
  | .expr name args suffixes => expr name args suffixes fun d _ => induction expr d

@[simp] theorem meanings_eq_map (ds : List Derivation) : meanings ds = ds.map meaning := by
  induction ds with
  | nil => rfl
  | cons d ds ih => rw [meanings, ih, List.map_cons]

end Derivation

/-! ## Texts -/

/-- The text consists of the tokens with blanks before each of them. -/
inductive Spells : List Token → List Char → Prop where
  | nil : Spells [] []
  | cons {blanks text : List Char} {t : Token} {ts : List Token}
    (hblanks : ∀ c ∈ blanks, Text.isBlank c = true) (h : Spells ts text) :
    Spells (t :: ts) (blanks ++ t.chars ++ text)

/-- The derivation is one of the text: the tokens with blanks before and after each of them. -/
def Derivation.Derives (d : Derivation) (cs : List Char) : Prop :=
  ∃ text blanks, cs = text ++ blanks ∧ Spells d.tokens text ∧ ∀ c ∈ blanks, Text.isBlank c = true

@[simp] theorem spells_nil_iff {text : List Char} : Spells [] text ↔ text = [] := by
  constructor
  · rintro ⟨⟩
    rfl
  · rintro rfl
    exact .nil

theorem spells_cons_iff {t : Token} {ts : List Token} {text : List Char} :
    Spells (t :: ts) text ↔
      ∃ blanks later, text = blanks ++ t.chars ++ later ∧ Spells ts later ∧
        ∀ c ∈ blanks, Text.isBlank c = true := by
  constructor
  · rintro ⟨⟩
    exact ⟨_, _, rfl, ‹_›, ‹_›⟩
  · rintro ⟨blanks, later, rfl, h, hblanks⟩
    exact .cons hblanks h

theorem Spells.append {ts us : List Token} {first later : List Char} (h : Spells ts first)
    (h' : Spells us later) : Spells (ts ++ us) (first ++ later) := by
  induction h with
  | nil => exact h'
  | cons hblanks _ ih =>
    rw [List.append_assoc]
    exact .cons hblanks ih

/-- The texts of two lists of tokens are those of the one before those of the other. -/
theorem spells_append_iff {ts us : List Token} {text : List Char} :
    Spells (ts ++ us) text ↔
      ∃ first later, text = first ++ later ∧ Spells ts first ∧ Spells us later := by
  constructor
  · intro h
    induction ts generalizing text with
    | nil => exact ⟨[], text, rfl, .nil, h⟩
    | cons t ts ih =>
      obtain ⟨blanks, rest, rfl, hrest, hblanks⟩ := spells_cons_iff.1 h
      obtain ⟨first, later, rfl, hfirst, hlater⟩ := ih hrest
      exact ⟨_, later, (List.append_assoc ..).symm, .cons hblanks hfirst, hlater⟩
  · rintro ⟨first, later, rfl, hfirst, hlater⟩
    exact hfirst.append hlater

theorem Mark.not_isBlank (m : Mark) : Text.isBlank m.char = false := by
  cases m <;> decide

/-- A token has characters, and the first one is not blank. -/
theorem Token.exists_cons (t : Token) :
    ∃ c cs, t.chars = c :: cs ∧ Text.isBlank c = false := by
  cases t with
  | name n =>
    obtain ⟨c, cs, hn, hc⟩ := n.wellFormed.exists_cons
    exact ⟨c, cs, hn, not_isBlank_of_isNameChar hc⟩
  | mark m => exact ⟨m.char, [], rfl, m.not_isBlank⟩

/-- Every token takes a character at least. -/
theorem Spells.length_le {ts : List Token} {text : List Char} (h : Spells ts text) :
    ts.length ≤ text.length := by
  induction h with
  | nil => exact Nat.le_refl 0
  | @cons _ _ t _ _ _ ih =>
    obtain ⟨c, cs, ht, _⟩ := t.exists_cons
    simp only [ht, List.length_cons, List.length_append]
    omega

/-! ## Names in meanings -/

theorem wellNamed_apply {e : TypeExpr} (h : e.wellNamed = true) (s : Suffix) :
    (s.apply e).wellNamed = true := by
  cases s with
  | array => exact h
  | nullable => exact wellNamed_named.2 ⟨by decide +kernel, by simpa using h⟩

theorem wellNamed_foldl_apply {e : TypeExpr} (h : e.wellNamed = true) (suffixes : List Suffix) :
    (suffixes.foldl Suffix.apply e).wellNamed = true := by
  induction suffixes generalizing e with
  | nil => exact h
  | cons s suffixes ih => exact ih (wellNamed_apply h s)

theorem wellNamed_meaning (d : Derivation) : d.meaning.wellNamed = true := by
  induction d using Derivation.induction with
  | expr name args suffixes ih =>
    rw [Derivation.meaning, Derivation.meanings_eq_map]
    have hname := isName_iff.2 name.wellFormed
    refine wellNamed_foldl_apply (wellNamed_named.2 ⟨hname, fun e he => ?_⟩) suffixes
    obtain ⟨d, hd, rfl⟩ := List.mem_map.1 he
    exact ih d hd

end ApiClient.TypeExpr
