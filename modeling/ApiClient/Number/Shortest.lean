import ApiClient.Number.Binary64

/-!
# Shortest decimal text

* `Decimal`: decimal digits and the power of ten of the last one.
* `Binary64.shortest`: the fewest digits that round to the double, of those the nearest to it.
* `Decimal.positional`, `Decimal.scientific`: the two ways to write the digits.
-/

namespace ApiClient

/-- The number `digits * 10 ^ power`. -/
structure Decimal where
  digits : Nat
  power : Int
  deriving DecidableEq, Repr

namespace Decimal

/-- The digits as text, most significant first. -/
def digitChars (d : Decimal) : List Char :=
  Nat.toDigits 10 d.digits

/-- The power of ten of the first digit. -/
def magnitude (d : Decimal) : Int :=
  d.power + d.digitChars.length - 1

/-- The digits without trailing zeros. -/
def trimZeros : Nat → Decimal → Decimal
  | 0, d => d
  | fuel + 1, d =>
    if d.digits ≠ 0 ∧ d.digits % 10 = 0 then trimZeros fuel ⟨d.digits / 10, d.power + 1⟩ else d

/-- Digits with a decimal point, at least one on each side of it. -/
def positional (d : Decimal) : String :=
  let ds := d.digitChars
  if 0 ≤ d.power then String.ofList (ds ++ List.replicate d.power.toNat '0') ++ ".0"
  else
    let places := (-d.power).toNat
    let ds := List.replicate (places + 1 - ds.length) '0' ++ ds
    String.ofList (ds.take (ds.length - places)) ++ "."
      ++ String.ofList (ds.drop (ds.length - places))

/-- One digit, the others after a point, and the exponent with its sign. -/
def scientific (d : Decimal) : String :=
  let ds := d.digitChars
  let fraction := if ds.length ≤ 1 then "" else "." ++ String.ofList (ds.drop 1)
  let sign := if 0 ≤ d.magnitude then "+" else "-"
  String.ofList (ds.take 1) ++ fraction ++ "e" ++ sign ++ toString d.magnitude.natAbs

end Decimal

namespace Binary64

/-- `10 ^ p` as a ratio. -/
def tenPower (p : Int) : Nat × Nat :=
  if 0 ≤ p then (Nat.pow 10 p.toNat, 1) else (1, Nat.pow 10 (-p).toNat)

/-- The reals that round to a positive double, as numerators over one denominator: the double
itself and the ends of the interval, which belong to it iff the mantissa is even. -/
structure Interval where
  den : Nat
  low : Nat
  value : Nat
  high : Nat
  closed : Bool

/-- The reals that round to the double's magnitude. Below a power of two the spacing halves. -/
def interval (x : Binary64) : Interval :=
  let (up, down) := twoPower (x.exponent - 2)
  let below := if x.mantissa = Nat.pow 2 52 ∧ minExponent < x.exponent then 1 else 2
  ⟨down, (4 * x.mantissa - below) * up, 4 * x.mantissa * up, (4 * x.mantissa + 2) * up,
   x.mantissa % 2 == 0⟩

/-- A decimal lies in the interval. -/
def Interval.holds (i : Interval) (d : Decimal) : Bool :=
  let (up, down) := tenPower d.power
  let point := d.digits * up * i.den
  let low := i.low * down
  let high := i.high * down
  decide (low < point ∧ point < high) || (i.closed && (point == low || point == high))

/-- The power of ten of the first digit of `num / den`, a number other than zero. -/
def decimalMagnitude (num den : Nat) : Int :=
  if den ≤ num then ((Nat.toDigits 10 (num / den)).length : Int) - 1
  else
    let guess := (Nat.toDigits 10 (den / num)).length - 1
    if den ≤ num * Nat.pow 10 guess then -(guess : Int) else -((guess : Int) + 1)

/-- The decimals of `count` digits next to the value, the nearer one first; a tie goes to the even
digits. -/
def neighbours (i : Interval) (magnitude : Int) (count : Nat) : List Decimal :=
  let power := magnitude - count + 1
  let (up, down) := tenPower power
  let num := i.value * down
  let den := i.den * up
  let q := num / den
  let r := num % den
  if 2 * r < den ∨ (2 * r = den ∧ q % 2 = 0) then [⟨q, power⟩, ⟨q + 1, power⟩]
  else [⟨q + 1, power⟩, ⟨q, power⟩]

/-- The fewest digits that round to the double's magnitude, the nearest of those. Seventeen digits
always do. -/
def shortest (x : Binary64) : Decimal :=
  if x.isZero then ⟨0, 0⟩
  else
    let i := x.interval
    let magnitude := decimalMagnitude i.value i.den
    match ((List.range 17).flatMap fun k => neighbours i magnitude (k + 1)).find? i.holds with
    | some d => d.trimZeros 17
    | none => ⟨0, 0⟩

/-- The sign and the shortest digits; those between `1e-5` and `1e16` are written without an
exponent. -/
def display (x : Binary64) : String :=
  let d := x.shortest
  let text := if -5 ≤ d.magnitude ∧ d.magnitude ≤ 15 then d.positional else d.scientific
  (if x.negative then "-" else "") ++ text

end Binary64

end ApiClient
