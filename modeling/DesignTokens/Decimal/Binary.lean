/-!
The exact value of a float: a finite float is `± mantissa · 2 ^ exponent`, read off its bits.
-/
namespace DesignTokens.Decimal

structure Binary where
  negative : Bool
  mantissa : Nat
  exponent : Int
  deriving DecidableEq, Repr

namespace Binary

/-- The value of a 64-bit pattern, unless it stands for an infinity or no number. -/
def ofBits? (bits : Nat) : Option Binary :=
  let negative := decide (Nat.pow 2 63 ≤ bits)
  let field : Nat := bits / Nat.pow 2 52 % Nat.pow 2 11
  let fraction : Nat := bits % Nat.pow 2 52
  if field = Nat.pow 2 11 - 1 then none
  else if field = 0 then some ⟨negative, fraction, -1074⟩
  else some ⟨negative, Nat.pow 2 52 + fraction, (field : Int) - 1075⟩

/-- The value of a finite float. -/
def ofFloat? (x : Float) : Option Binary :=
  ofBits? x.toBits.toNat

/-- The magnitude as a quotient. -/
def numerator (b : Binary) : Nat := b.mantissa * Nat.pow 2 b.exponent.toNat

def denominator (b : Binary) : Nat := Nat.pow 2 (-b.exponent).toNat

/-- Nothing but a whole number is left when the fraction is dropped. -/
def truncate (b : Binary) : Int :=
  let n : Int := (b.numerator / b.denominator : Nat)
  if b.negative then -n else n

def isWhole (b : Binary) : Bool :=
  b.numerator % b.denominator == 0

end Binary

/-- Neither infinite nor a NaN. -/
def isFinite (x : Float) : Bool :=
  (Binary.ofFloat? x).isSome

end DesignTokens.Decimal
