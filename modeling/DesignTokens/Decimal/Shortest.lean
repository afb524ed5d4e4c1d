import DesignTokens.Decimal.Binary

/-!
The fewest decimal digits that read back as a float, and among those the decimal nearest to it.

The reals that read back as `m · 2 ^ e` lie between the midpoints to the neighbouring floats, the
midpoints themselves counting when `m` is even. Grids of one, two, … digits are tried in turn; if a
point of a grid lies in that interval, so does one of the two points next to the float.
-/
namespace DesignTokens.Decimal

/-- The decimal `coefficient · 10 ^ exponent`. -/
structure Scientific where
  coefficient : Nat
  exponent : Int
  deriving DecidableEq, Repr

/-- `floor (log₁₀ (num / den))`, for values above `10 ^ -400`. -/
def magnitude (num den : Nat) : Int :=
  ((Nat.toDigits 10 (num * Nat.pow 10 400 / den)).length : Int) - 401

/-- The interval of `m · 2 ^ e` in quarters of its unit in the last place. -/
structure Interval where
  low : Nat
  value : Nat
  high : Nat
  closed : Bool
  /-- A quarter unit is `2 ^ exponent`. -/
  exponent : Int
  deriving DecidableEq, Repr

/-- Below a power of two the neighbour is half as far away, except among the subnormal floats. -/
def Interval.ofBinary (b : Binary) : Interval where
  low := if b.mantissa == Nat.pow 2 52 && b.exponent != -1074 then 4 * b.mantissa - 1
    else 4 * b.mantissa - 2
  value := 4 * b.mantissa
  high := 4 * b.mantissa + 2
  closed := b.mantissa % 2 == 0
  exponent := b.exponent - 2

namespace Interval

/-- Quarter units on the scale shared with the decimal grid `10 ^ k`. -/
def scaled (i : Interval) (k : Int) (quarters : Nat) : Nat :=
  quarters * Nat.pow 2 i.exponent.toNat * Nat.pow 10 (-k).toNat

/-- One step of the decimal grid `10 ^ k` on the shared scale. -/
def step (i : Interval) (k : Int) : Nat :=
  Nat.pow 10 k.toNat * Nat.pow 2 (-i.exponent).toNat

/-- Whether the grid point `d · 10 ^ k` reads back. -/
def holds (i : Interval) (k : Int) (d : Nat) : Bool :=
  let p := d * i.step k
  let lo := i.scaled k i.low
  let hi := i.scaled k i.high
  if i.closed then lo ≤ p && p ≤ hi else lo < p && p < hi

/-- The grid point nearest to the value among its two neighbours that read back. -/
def nearest? (i : Interval) (k : Int) : Option Scientific :=
  let unit := i.step k
  let v := i.scaled k i.value
  let d := v / unit
  match i.holds k d, i.holds k (d + 1) with
  | true, true =>
    let twice := (2 * d + 1) * unit
    some ⟨if 2 * v < twice then d else if twice < 2 * v then d + 1 else d + d % 2, k⟩
  | true, false => some ⟨d, k⟩
  | false, true => some ⟨d + 1, k⟩
  | false, false => none

end Interval

/-- The shortest decimal of a magnitude that is not zero; seventeen digits always suffice. -/
def shortest (b : Binary) : Scientific :=
  let i := Interval.ofBinary b
  let p := magnitude b.numerator b.denominator
  match (List.range 17).findSome? fun n : Nat => i.nearest? (p - n) with
  | some s => s
  | none => ⟨b.mantissa, b.exponent⟩

end DesignTokens.Decimal
