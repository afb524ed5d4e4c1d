import DesignTokens.Decimal.Binary

/-!
Rounding to a number of decimal places. The exact binary value is rounded, a tie goes to the even
neighbour, and the result is the float nearest to the rounded decimal.
-/
namespace DesignTokens.Decimal

/-- The whole number nearest to `num / den`; a tie goes to the even one. -/
def roundDiv (num den : Nat) : Nat :=
  let q := num / den
  let r := num % den
  if 2 * r < den then q
  else if den < 2 * r then q + 1
  else q + q % 2

theorem roundDiv_of_dvd (q : Nat) {den : Nat} (h : 0 < den) : roundDiv (q * den) den = q := by
  simp [roundDiv, Nat.mul_div_cancel _ h, h]

/-- A quotient and its rounding differ by at most one half. -/
theorem roundDiv_close (num : Nat) {den : Nat} (h : 0 < den) :
    2 * num ≤ 2 * (roundDiv num den * den) + den ∧
      2 * (roundDiv num den * den) ≤ 2 * num + den := by
  have hd := Nat.div_add_mod num den
  have hr := Nat.mod_lt num h
  rw [Nat.mul_comm] at hd
  simp only [roundDiv]
  split
  · omega
  · split
    · rw [Nat.add_mul]; omega
    · rcases Nat.mod_two_eq_zero_or_one (num / den) with e | e <;> rw [e, Nat.add_mul] <;> omega

/-- The float nearest to `±n / 10 ^ places`. -/
def ofPlaces (negative : Bool) (n places : Nat) : Float :=
  let x := Float.ofScientific n true places
  if negative then -x else x

/-- Rounds to `places` decimal places; what is not finite stays as it is. -/
def roundPlaces (x : Float) (places : Nat) : Float :=
  match Binary.ofFloat? x with
  | none => x
  | some b =>
    if b.isWhole then x
    else ofPlaces b.negative (roundDiv (b.numerator * Nat.pow 10 places) b.denominator) places

end DesignTokens.Decimal
