import ApiClient.Json.Fault
import ApiClient.Json.Numeral
import ApiClient.Text.Split

/-!
# Outlines of JSON texts

An outline is a JSON text split into values as far as it goes. Where the text breaks, the outline
holds the fault in that place, so that a reader that walks the outline in the order of the text
meets the first fault first, be it in the text or in what the text says.

* `Outline`: the tree.
* `Outline.scan`: the outline of a text.
* `Outline.skip`: walks over a value that nobody reads.

Reading and skipping differ in a few places: only reading looks at the range of numbers, at
surrogate escapes and at the depth of nesting.
-/

namespace ApiClient.Json

/-- A JSON text as far as it can be split into values. -/
inductive Outline where
  | null
  | bool (b : Bool)
  | number (n : Numeral)
  /-- A string literal, which may hold a surrogate escape that stands for no text. -/
  | string (text : Except Fault String)
  /-- An array; `stop` tells why it ends without a bracket. -/
  | list (items : List Outline) (stop : Option Fault)
  /-- An object, of keys and values; `stop` tells why it ends without a brace. A key is a string
  literal, but for what stands in the place of the first one. -/
  | object (members : List (Outline × Outline)) (stop : Option Fault)
  /-- The text breaks here. -/
  | broken (whenRead whenSkipped : Fault)

namespace Outline

/-- A break that reading and skipping report alike. -/
def fault (f : Fault) : Outline :=
  .broken f f

/-- A blank of JSON. -/
def isBlank (c : Char) : Bool :=
  c == ' ' || c == '\n' || c == '\t' || c == '\r'

/-- Drops the leading blanks. -/
def dropBlanks (cs : List Char) : List Char :=
  cs.dropWhile isBlank

/-! ## String literals -/

/-- The value of a hexadecimal digit. -/
def hexDigit (c : Char) : Option Nat :=
  if '0' ≤ c ∧ c ≤ '9' then some (c.toNat - 48)
  else if 'a' ≤ c ∧ c ≤ 'f' then some (c.toNat - 87)
  else if 'A' ≤ c ∧ c ≤ 'F' then some (c.toNat - 55)
  else none

/-- The number of the four hexadecimal digits at the beginning of a text, and the text after them.
Fewer than four bytes are too short a text. -/
def hexEscape (cs : List Char) : Except Fault (Nat × List Char) :=
  if Text.byteLength (cs.take 4) < 4 then .error .truncated
  else
    match cs with
    | a :: b :: c :: d :: rest =>
      match hexDigit a, hexDigit b, hexDigit c, hexDigit d with
      | some a, some b, some c, some d => .ok (((a * 16 + b) * 16 + c) * 16 + d, rest)
      | _, _, _, _ => .error .malformed
    | _ => .error .malformed

/-- The character of a short escape. -/
def shortEscape (c : Char) : Option Char :=
  match c with
  | '"' => some '"'
  | '\\' => some '\\'
  | '/' => some '/'
  | 'b' => some '\x08'
  | 'f' => some '\x0c'
  | 'n' => some '\n'
  | 'r' => some '\r'
  | 't' => some '\t'
  | _ => none

/-- The low half of a surrogate pair, which must follow the high one as an escape of its own. -/
def lowSurrogate : List Char → Except Fault (Nat × List Char)
  | [] => .error .truncated
  | '\\' :: [] => .error .truncated
  | '\\' :: 'u' :: cs =>
    match hexEscape cs with
    | .error f => .error f
    | .ok (n, rest) =>
      if 0xDC00 ≤ n ∧ n ≤ 0xDFFF then .ok (n, rest) else .error .malformed
  | _ => .error .malformed

/-- The character of a `\u` escape, from the text after `\u`. -/
def readEscape (cs : List Char) : Except Fault (Char × List Char) :=
  match hexEscape cs with
  | .error f => .error f
  | .ok (n, rest) =>
    if 0xDC00 ≤ n ∧ n ≤ 0xDFFF then .error .malformed
    else if 0xD800 ≤ n ∧ n ≤ 0xDBFF then
      match lowSurrogate rest with
      | .error f => .error f
      | .ok (low, rest) =>
        .ok (Char.ofNat (0x10000 + (n - 0xD800) * 0x400 + (low - 0xDC00)), rest)
    else .ok (Char.ofNat n, rest)

/-- The text of a string literal, from the text after its opening quote. Every step takes a
character at least, which bounds the fuel. -/
def readString : Nat → List Char → Except Fault (List Char × List Char)
  | 0, _ => .error .truncated
  | _ + 1, [] => .error .truncated
  | fuel + 1, c :: cs =>
    if c = '"' then .ok ([], cs)
    else if c = '\\' then
      match cs with
      | [] => .error .truncated
      | 'u' :: cs =>
        match readEscape cs with
        | .error f => .error f
        | .ok (d, cs) => (readString fuel cs).map fun r => (d :: r.1, r.2)
      | e :: cs =>
        match shortEscape e with
        | none => .error .malformed
        | some d => (readString fuel cs).map fun r => (d :: r.1, r.2)
    else if c.toNat < 0x20 then .error .malformed
    else (readString fuel cs).map fun r => (c :: r.1, r.2)

/-- The text after a string literal that is not read. -/
def skipString : Nat → List Char → Except Fault (List Char)
  | 0, _ => .error .truncated
  | _ + 1, [] => .error .truncated
  | fuel + 1, c :: cs =>
    if c = '"' then .ok cs
    else if c = '\\' then
      match cs with
      | [] => .error .truncated
      | 'u' :: cs =>
        match hexEscape cs with
        | .error f => .error f
        | .ok (_, cs) => skipString fuel cs
      | e :: cs =>
        match shortEscape e with
        | none => .error .malformed
        | some _ => skipString fuel cs
    else if c.toNat < 0x20 then .error .malformed
    else skipString fuel cs

/-- An outline and the text after it, unless the text breaks inside. -/
abbrev Scan := Outline × Option (List Char)

/-- The outline of a string literal, from the text after its opening quote. -/
def scanString (cs : List Char) : Scan :=
  let text := (readString (cs.length + 1) cs).map fun r => String.ofList r.1
  match skipString (cs.length + 1) cs, text with
  | .ok rest, text => (.string text, some rest)
  | .error f, .error g => (.broken g f, none)
  | .error f, .ok _ => (.fault f, none)

/-! ## Numbers and words -/

/-- The digits at the beginning of a text and the text after them. -/
def spanDigits (cs : List Char) : List Char × List Char :=
  (cs.takeWhile Char.isDigit, cs.dropWhile Char.isDigit)

/-- A number that breaks: a reader reports the end of the text as such, one who skips does not. -/
def brokenNumber : List Char → Outline
  | [] => .broken .truncated .malformed
  | _ => .fault .malformed

/-- The exponent of a number, from the text after its mark. -/
def scanExponent (negative : Bool) (whole : List Char) (fraction : Option (List Char))
    (cs : List Char) : Scan :=
  let (minus, cs) :=
    match cs with
    | '+' :: cs => (false, cs)
    | '-' :: cs => (true, cs)
    | cs => (false, cs)
  match spanDigits cs with
  | ([], rest) => (brokenNumber rest, none)
  | (digits, rest) => (.number ⟨negative, whole, fraction, some (minus, digits)⟩, some rest)

/-- What follows the digits of a number, if an exponent does. -/
def scanTail (negative : Bool) (whole : List Char) (fraction : Option (List Char))
    (cs : List Char) : Scan :=
  match cs with
  | c :: rest =>
    if c = 'e' ∨ c = 'E' then scanExponent negative whole fraction rest
    else (.number ⟨negative, whole, fraction, none⟩, some cs)
  | [] => (.number ⟨negative, whole, fraction, none⟩, some [])

/-- A number without its sign. -/
def scanNumber (negative : Bool) (cs : List Char) : Scan :=
  match spanDigits cs with
  | ([], rest) => (brokenNumber rest, none)
  | ('0' :: _ :: _, _) => (.fault .malformed, none)
  | (whole, '.' :: rest) =>
    match spanDigits rest with
    | ([], rest) => (brokenNumber rest, none)
    | (fraction, rest) => scanTail negative whole (some fraction) rest
  | (whole, rest) => scanTail negative whole none rest

/-- A word that must follow. -/
def scanWord (o : Outline) : List Char → List Char → Scan
  | [], rest => (o, some rest)
  | _ :: _, [] => (.fault .truncated, none)
  | w :: ws, c :: cs => if w = c then scanWord o ws cs else (.fault .malformed, none)

/-! ## Values -/

mutual
/-- The outline of a value. Every value takes a character at least, which bounds the fuel. -/
def scanValue : Nat → List Char → Scan
  | 0, _ => (.fault .malformed, none)
  | fuel + 1, cs =>
    match dropBlanks cs with
    | [] => (.fault .truncated, none)
    | '"' :: cs => scanString cs
    | 'n' :: cs => scanWord .null ['u', 'l', 'l'] cs
    | 't' :: cs => scanWord (.bool true) ['r', 'u', 'e'] cs
    | 'f' :: cs => scanWord (.bool false) ['a', 'l', 's', 'e'] cs
    | '-' :: cs => scanNumber true cs
    | '[' :: cs =>
      match dropBlanks cs with
      | [] => (.list [] (some .truncated), none)
      | ']' :: rest => (.list [] none, some rest)
      | cs =>
        let (items, stop, rest) := scanItems fuel cs
        (.list items stop, rest)
    | '\x7b' :: cs =>
      match dropBlanks cs with
      | [] => (.object [] (some .truncated), none)
      | '\x7d' :: rest => (.object [] none, some rest)
      | '"' :: cs =>
        let (members, stop, rest) := scanMembers fuel cs
        (.object members stop, rest)
      | cs => (.object [((scanValue fuel cs).1, .fault .malformed)] none, none)
    | c :: cs => if c.isDigit then scanNumber false (c :: cs) else (.fault .malformed, none)
/-- The items of an array up to its bracket. -/
def scanItems : Nat → List Char → List Outline × Option Fault × Option (List Char)
  | 0, _ => ([], some .malformed, none)
  | fuel + 1, cs =>
    match scanValue fuel cs with
    | (item, none) => ([item], none, none)
    | (item, some cs) =>
      match dropBlanks cs with
      | [] => ([item], some .truncated, none)
      | ']' :: rest => ([item], none, some rest)
      | ',' :: cs =>
        let (items, stop, rest) := scanItems fuel cs
        (item :: items, stop, rest)
      | _ => ([item], some .malformed, none)
/-- The members of an object up to its brace, from the text after the quote of the first key. -/
def scanMembers : Nat → List Char →
    List (Outline × Outline) × Option Fault × Option (List Char)
  | 0, _ => ([], some .malformed, none)
  | fuel + 1, cs =>
    match scanString cs with
    | (.broken f g, _) => ([(.string (.error f), .broken f g)], none, none)
    | (key, none) => ([(key, .fault .malformed)], none, none)
    | (key, some cs) =>
      match dropBlanks cs with
      | [] => ([(key, .fault .truncated)], none, none)
      | ':' :: cs =>
        match scanValue fuel cs with
        | (value, none) => ([(key, value)], none, none)
        | (value, some cs) =>
          match dropBlanks cs with
          | [] => ([(key, value)], some .truncated, none)
          | '\x7d' :: rest => ([(key, value)], none, some rest)
          | ',' :: cs =>
            match dropBlanks cs with
            | [] => ([(key, value)], some .truncated, none)
            | '"' :: cs =>
              let (members, stop, rest) := scanMembers fuel cs
              ((key, value) :: members, stop, rest)
            | _ => ([(key, value)], some .malformed, none)
          | _ => ([(key, value)], some .malformed, none)
      | _ => ([(key, .fault .malformed)], none, none)
end

/-- The outline of a text, and the fault of what follows its value. -/
def scan (text : String) : Outline × Option Fault :=
  let cs := text.toList
  match scanValue (2 * cs.length + 2) cs with
  | (root, none) => (root, none)
  | (root, some rest) => (root, if (dropBlanks rest).isEmpty then none else some .malformed)

/-! ## Skipping -/

/-- An end without its bracket is a fault. -/
def atEnd : Option Fault → Except Fault Unit
  | none => .ok ()
  | some f => .error f

/-- Walks over a key that nobody reads. -/
def skipKey : Outline → Except Fault Unit
  | .string _ => .ok ()
  | _ => .error .malformed

mutual
/-- Walks over a value that nobody reads. -/
def skip : Outline → Except Fault Unit
  | .null | .bool _ | .number _ | .string _ => .ok ()
  | .list items stop => do
    skipItems items
    atEnd stop
  | .object members stop => do
    skipMembers members
    atEnd stop
  | .broken _ f => .error f
/-- Walks over items. -/
def skipItems : List Outline → Except Fault Unit
  | [] => .ok ()
  | o :: os => do
    skip o
    skipItems os
/-- Walks over members. -/
def skipMembers : List (Outline × Outline) → Except Fault Unit
  | [] => .ok ()
  | (key, value) :: ms => do
    skipKey key
    skip value
    skipMembers ms
end

end Outline

end ApiClient.Json
