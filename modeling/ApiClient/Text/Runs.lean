/-!
# Runs of code points

A property of characters is stored as the increasing list of code points at which it switches
between absent and present; a case mapping is stored as a list of shifted ranges. All tables are
those of version 16.0 of the Unicode standard.

* `inRuns`: membership in such a list of switching points.
* `Shift`, `shifted`: a mapping of code points by the first range that holds them.
-/

namespace ApiClient.Text

/-! ## Membership -/

/-- A code point is in the runs iff an odd number of switching points is at or below it. -/
def inRuns : List Nat → Nat → Bool
  | [], _ => false
  | b :: bs, n => if n < b then false else !inRuns bs n

@[simp] theorem inRuns_nil (n : Nat) : inRuns [] n = false := rfl

/-! ## Mappings -/

/-- The code points `first`, `first + step`, … up to `last`, each moved by `offset`. -/
structure Shift where
  first : Nat
  last : Nat
  step : Nat
  offset : Int

/-- A range holds the code points that its step reaches. -/
def Shift.holds (s : Shift) (n : Nat) : Bool :=
  decide (s.first ≤ n) && decide (n ≤ s.last) && (n - s.first) % s.step == 0

/-- Moves a code point by the first range that holds it; any other stays. -/
def shifted (table : List Shift) (n : Nat) : Nat :=
  match table.find? (·.holds n) with
  | some s => (n + s.offset).toNat
  | none => n

end ApiClient.Text
