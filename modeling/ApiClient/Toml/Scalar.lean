/-!
# TOML words

A word is a value without quotes or brackets: a truth value, a number or a moment.

* `isNumber`: whole numbers with a sign or in base 16, 8 or 2, fractions, exponents, `inf` and
  `nan`; single underscores may part the digits.
* `isMoment`: a date, a time without zone, or a date with a time and perhaps a zone. Seconds may be
  left out.
-/

namespace ApiClient.Toml

/-! ## Numbers -/

/-- A text without its sign. -/
def dropSign : List Char → List Char
  | '+' :: cs | '-' :: cs => cs
  | cs => cs

/-- Digits with single underscores between them. -/
def isDigits (isDigit : Char → Bool) : List Char → Bool
  | [] => false
  | [c] => isDigit c
  | c :: '_' :: cs => isDigit c && isDigits isDigit cs
  | c :: cs => isDigit c && isDigits isDigit cs

/-- A decimal whole number without sign, which has no leading zero. -/
def isWhole (cs : List Char) : Bool :=
  isDigits Char.isDigit cs && (cs = ['0'] || cs.head? != some '0')

/-- An exponent. -/
def isExponent : List Char → Bool
  | 'e' :: cs | 'E' :: cs => isDigits Char.isDigit (dropSign cs)
  | _ => false

/-- A fraction, perhaps with an exponent. -/
def isFraction : List Char → Bool
  | '.' :: cs =>
    let digits := cs.takeWhile fun c => c != 'e' && c != 'E'
    let rest := cs.drop digits.length
    isDigits Char.isDigit digits && (rest.isEmpty || isExponent rest)
  | _ => false

/-- A decimal number. -/
def isDecimal (cs : List Char) : Bool :=
  let cs := dropSign cs
  let whole := cs.takeWhile fun c => c.isDigit || c = '_'
  let rest := cs.drop whole.length
  isWhole whole && (rest.isEmpty || isExponent rest || isFraction rest)

/-- A hexadecimal digit. -/
def isHexDigit (c : Char) : Bool :=
  c.isDigit || ('a' ≤ c && c ≤ 'f') || ('A' ≤ c && c ≤ 'F')

/-- A number. -/
def isNumber (cs : List Char) : Bool :=
  match cs with
  | '0' :: 'x' :: cs => isDigits isHexDigit cs
  | '0' :: 'o' :: cs => isDigits (fun c => '0' ≤ c && c ≤ '7') cs
  | '0' :: 'b' :: cs => isDigits (fun c => c = '0' || c = '1') cs
  | cs =>
    isDecimal cs || dropSign cs = ['i', 'n', 'f'] || dropSign cs = ['n', 'a', 'n']

/-! ## Moments -/

/-- The value of two digits, and the text after them. -/
def twoDigits? : List Char → Option (Nat × List Char)
  | a :: b :: cs =>
    if a.isDigit && b.isDigit then
      some ((a.toNat - '0'.toNat) * 10 + (b.toNat - '0'.toNat), cs)
    else none
  | _ => none

/-- The number of days of a month. -/
def daysOf (year month : Nat) : Nat :=
  if month = 2 then
    if year % 4 = 0 ∧ (year % 100 ≠ 0 ∨ year % 400 = 0) then 29 else 28
  else if [4, 6, 9, 11].contains month then 30
  else 31

/-- The text after a date. -/
def dropDate? (cs : List Char) : Option (List Char) := do
  let (century, cs) ← twoDigits? cs
  let (year, cs) ← twoDigits? cs
  let '-' :: cs := cs | none
  let (month, cs) ← twoDigits? cs
  let '-' :: cs := cs | none
  let (day, cs) ← twoDigits? cs
  if 1 ≤ month ∧ month ≤ 12 ∧ 1 ≤ day ∧ day ≤ daysOf (century * 100 + year) month then some cs
  else none

/-- The text after the fraction of a second, if there is one. -/
def dropSecondFraction? : List Char → Option (List Char)
  | '.' :: c :: cs => if c.isDigit then some (cs.dropWhile Char.isDigit) else none
  | '.' :: [] => none
  | cs => some cs

/-- The text after a time. -/
def dropTime? (cs : List Char) : Option (List Char) := do
  let (hour, cs) ← twoDigits? cs
  let ':' :: cs := cs | none
  let (minute, cs) ← twoDigits? cs
  if hour ≤ 23 ∧ minute ≤ 59 then
    match cs with
    | ':' :: cs => do
      let (second, cs) ← twoDigits? cs
      if second ≤ 60 then dropSecondFraction? cs else none
    | cs => some cs
  else none

/-- A zone, or none. -/
def isZone : List Char → Bool
  | [] | ['Z'] | ['z'] => true
  | '+' :: cs | '-' :: cs =>
    match twoDigits? cs with
    | some (hour, ':' :: cs) =>
      match twoDigits? cs with
      | some (minute, []) => hour ≤ 23 && minute ≤ 59
      | _ => false
    | _ => false
  | _ => false

/-- A moment. -/
def isMoment (cs : List Char) : Bool :=
  match dropDate? cs with
  | some [] => true
  | some (c :: time) =>
    (c = 'T' || c = 't' || c = ' ') && ((dropTime? time).map isZone).getD false
  | none => dropTime? cs == some []

end ApiClient.Toml
