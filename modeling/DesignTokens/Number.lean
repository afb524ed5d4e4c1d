import DesignTokens.Decimal.Layout

/-!
Numbers as configuration files write them: integers of any size, and floats. An integer that meets
a float becomes the nearest float; when the integer is beyond every float the result is `overflow`,
which no further operation leaves. Comparisons are exact.
-/
namespace DesignTokens

inductive Number where
  | int (n : Int)
  | float (x : Float)
  | overflow
  deriving DecidableEq, Repr

namespace Number

instance : NatCast Number := ⟨fun n => .int n⟩

/-- A length of nothing is a float. -/
instance : Zero Number := ⟨.float 0⟩

instance (n : Nat) : OfNat Number n := ⟨.int n⟩

/-- The nearest float, if the integer is within the range of floats. -/
def floatOfInt? (n : Int) : Option Float :=
  let x := Float.ofInt n
  if Decimal.isFinite x then some x else none

def toFloat? : Number → Option Float
  | .int n => floatOfInt? n
  | .float x => some x
  | .overflow => none

/-- Integers are combined exactly, all else as floats. -/
def combine (onInts : Int → Int → Int) (onFloats : Float → Float → Float) : Number → Number → Number
  | .int m, .int n => .int (onInts m n)
  | a, b => match a.toFloat?, b.toFloat? with
    | some x, some y => .float (onFloats x y)
    | _, _ => .overflow

instance : Add Number := ⟨combine (· + ·) (· + ·)⟩

instance : Sub Number := ⟨combine (· - ·) (· - ·)⟩

instance : Mul Number := ⟨combine (· * ·) (· * ·)⟩

@[simp] theorem int_add (m n : Int) : (.int m + .int n : Number) = .int (m + n) := rfl

@[simp] theorem float_add (x y : Float) : (.float x + .float y : Number) = .float (x + y) := rfl

instance : Neg Number where
  neg
    | .int n => .int (-n)
    | .float x => .float (-x)
    | .overflow => .overflow

/-- The order of an integer and a finite float, without rounding either. -/
def compareExact (n : Int) (b : Decimal.Binary) : Ordering :=
  let magnitude : Int := b.numerator
  compare (n * b.denominator) (if b.negative then -magnitude else magnitude)

/-- The order of an integer and a float; a NaN has none. -/
def compareFloat (n : Int) (x : Float) : Option Ordering :=
  match Decimal.Binary.ofFloat? x with
  | some b => some (compareExact n b)
  | none => if x.isNaN then none else some (if x < 0 then .gt else .lt)

def order : Number → Number → Option Ordering
  | .int m, .int n => some (compare m n)
  | .float x, .float y => if x < y then some .lt else if y < x then some .gt
    else if x == y then some .eq else none
  | .int m, .float y => compareFloat m y
  | .float x, .int n => (compareFloat n x).map Ordering.swap
  | .overflow, _ => none
  | _, .overflow => none

/-- Equality of values: `1` and `1.0` are equal, a NaN equals nothing. -/
instance : BEq Number := ⟨fun a b => a.order b == some .eq⟩

instance : LT Number := ⟨fun a b => a.order b = some .lt⟩

instance : DecidableLT Number := fun a b => inferInstanceAs (Decidable (a.order b = some .lt))

/-- The first number, unless the second is greater; an overflow counts as greatest. -/
instance : Max Number := ⟨fun a b => if a < b || (b matches .overflow) then b else a⟩

/-- The first number, unless the second is less. -/
instance : Min Number := ⟨fun a b => if b < a || (b matches .overflow) then b else a⟩

def isZero (a : Number) : Bool := a == 0

def isOverflow (a : Number) : Bool := a matches .overflow

/-- Rounding to decimal places leaves integers alone. -/
def round (places : Nat) : Number → Number
  | .float x => .float (Decimal.roundPlaces x places)
  | a => a

/-- The text of a number: an integer's digits, a float's shortest text. -/
def text : Number → String
  | .int n => toString n
  | .float x => Decimal.floatText x
  | .overflow => "nan"

end Number

end DesignTokens
