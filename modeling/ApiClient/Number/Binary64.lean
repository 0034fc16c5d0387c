/-!
# Double precision numbers

A finite double is a sign and `mantissa * 2 ^ exponent`, with less than 53 bits of mantissa and an
exponent of at least `-1074`.

* `Binary64.round`: the double nearest to a ratio, a tie going to the even mantissa; there is none
  when the ratio is beyond the largest double.
* `Binary64.ofNat`, `mul`, `div`: the rounded operations.
-/

namespace ApiClient

/-- A finite double. -/
structure Binary64 where
  negative : Bool
  mantissa : Nat
  exponent : Int
  deriving DecidableEq, Repr

namespace Binary64

/-- The least exponent. -/
def minExponent : Int := -1074

/-- The greatest exponent of a full mantissa. -/
def maxExponent : Int := 971

/-- Zero of either sign. -/
def zero (negative : Bool) : Binary64 :=
  ⟨negative, 0, minExponent⟩

/-- The value is zero. -/
def isZero (x : Binary64) : Bool :=
  x.mantissa == 0

/-- `2 ^ e` as a ratio. -/
def twoPower (e : Int) : Nat × Nat :=
  if 0 ≤ e then (Nat.pow 2 e.toNat, 1) else (1, Nat.pow 2 (-e).toNat)

/-- The whole number nearest to a ratio, a tie going to the even one. -/
def nearest (num den : Nat) : Nat :=
  let q := num / den
  let r := num % den
  if den < 2 * r ∨ (2 * r = den ∧ q % 2 = 1) then q + 1 else q

/-- The exponent at which the ratio has 53 bits of mantissa, or the least one. -/
def exponentOf (num den : Nat) : Int :=
  let estimate : Int := (num.log2 : Int) - den.log2 - 52
  let (up, down) := twoPower (-estimate)
  let exact := if num * up / (den * down) < Nat.pow 2 52 then estimate - 1 else estimate
  max exact minExponent

/-- The double nearest to `num / den`, unless that is beyond the largest one. -/
def round (negative : Bool) (num den : Nat) : Option Binary64 :=
  if num = 0 then some (zero negative)
  else
    let e := exponentOf num den
    let (up, down) := twoPower (-e)
    let m := nearest (num * up) (den * down)
    let (m, e) := if m = Nat.pow 2 53 then (Nat.pow 2 52, e + 1) else (m, e)
    if maxExponent < e then none else some ⟨negative, m, e⟩

/-- The double nearest to a whole number. -/
def ofNat (n : Nat) : Option Binary64 :=
  round false n 1

/-- The rounded product. -/
def mul (x y : Binary64) : Option Binary64 :=
  let (up, down) := twoPower (x.exponent + y.exponent)
  round (x.negative != y.negative) (x.mantissa * y.mantissa * up) down

/-- The rounded quotient by a number other than zero. -/
def div (x y : Binary64) : Option Binary64 :=
  let (up, down) := twoPower (x.exponent - y.exponent)
  round (x.negative != y.negative) (x.mantissa * up) (y.mantissa * down)

end Binary64

end ApiClient
