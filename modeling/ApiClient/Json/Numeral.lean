import ApiClient.Json.Value

/-!
# Numerals

A numeral is the text of a JSON number, split into its parts. `Numeral.value?` gives its number:

* a numeral without fraction and exponent that fits into 64 bits is whole, but `-0` is a double;
* any other is a double, from the digits that fit into an unsigned 64-bit significand and from a
  power of ten, with one rounding for each. There is none if a double cannot reach it.
-/

namespace ApiClient.Json

/-- The parts of a number's text. -/
structure Numeral where
  negative : Bool
  whole : List Char
  fraction : Option (List Char)
  /-- The digits of the exponent, and whether a minus sign stands before them. -/
  exponent : Option (Bool × List Char)

namespace Numeral

/-- The greatest significand. -/
def maxSignificand : Nat := Nat.pow 2 64 - 1

/-- The greatest exponent that is read digit by digit. -/
def maxExponent : Nat := Nat.pow 2 31 - 1

/-- The value of a digit. -/
def digit (c : Char) : Nat :=
  c.toNat - '0'.toNat

/-- Appends digits to a significand up to the first one that does not fit; the digits from that one
on are left. -/
def accumulate (significand : Nat) : List Char → Nat × List Char
  | [] => (significand, [])
  | c :: cs =>
    if significand * 10 + digit c ≤ maxSignificand then
      accumulate (significand * 10 + digit c) cs
    else (significand, c :: cs)

/-- `10 ^ k` as a double. -/
def tenPower (k : Nat) : Binary64 :=
  (Binary64.round false (Nat.pow 10 k) 1).getD (Binary64.zero false)

/-- Scales a double down by a power of ten, by at most `308` at a time. Four steps bring every
significand to zero. -/
def scaleDown : Nat → Binary64 → Nat → Option Binary64
  | 0, _, _ => some (Binary64.zero false)
  | steps + 1, x, k =>
    if k ≤ 308 then x.div (tenPower k)
    else if x.isZero then some x
    else
      match x.div (tenPower 308) with
      | none => none
      | some y => scaleDown steps y (k - 308)

/-- The double `significand * 10 ^ power`, rounded after each operation. -/
def scaled (significand : Nat) (power : Int) : Option Binary64 :=
  match Binary64.ofNat significand with
  | none => none
  | some x =>
    if 0 ≤ power then
      if power ≤ 308 then x.mul (tenPower power.toNat)
      else if x.isZero then some x
      else none
    else scaleDown 4 x (-power).toNat

/-- The digits of the whole part and of the fraction as a significand and a power of ten. Digits
of the whole part that do not fit raise the power; those of the fraction are dropped. -/
def significand (n : Numeral) : Nat × Int :=
  let (high, left) := accumulate 0 n.whole
  let fraction := n.fraction.getD []
  let (low, dropped) := accumulate high fraction
  (low, (left.length : Int) - (fraction.length - dropped.length))

/-- The magnitude of a numeral as a double. -/
def magnitude? (n : Numeral) : Option Binary64 :=
  let (s, power) := n.significand
  match n.exponent with
  | none => scaled s power
  | some (negative, digits) =>
    let e := digits.foldl (fun v c => v * 10 + digit c) 0
    if maxExponent < e then
      if s = 0 ∨ negative then some (Binary64.zero false) else none
    else scaled s (if negative then power - e else power + e)

/-- The double of a numeral. -/
def double? (n : Numeral) : Option Binary64 :=
  n.magnitude?.map fun x => { x with negative := n.negative }

/-- The number of a numeral. -/
def value? (n : Numeral) : Option Number :=
  match n.fraction, n.exponent with
  | none, none =>
    let v := n.whole.foldl (fun v c => v * 10 + digit c) 0
    if n.negative then
      if v ≠ 0 ∧ v ≤ Nat.pow 2 63 then some (.whole (-v)) else n.double?.map .double
    else if v ≤ maxSignificand then some (.whole v)
    else n.double?.map .double
  | _, _ => n.double?.map .double

end Numeral

end ApiClient.Json
