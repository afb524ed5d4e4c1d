import DesignTokens.Decimal.Shortest
import DesignTokens.Decimal.Rounding

/-!
How a decimal is written: which exponents are written out as leading or trailing zeros, and whether
a whole number keeps a point. Exponents have a sign and at least two digits.
-/
namespace DesignTokens.Decimal

structure Layout where
  /-- The greatest exponent of the first digit that is written out; the least one is -4. -/
  greatest : Int
  /-- A whole number that is written out ends in `.0`. -/
  keepsPoint : Bool
  deriving DecidableEq, Repr

/-- Full precision: written out below `10 ^ 16`, and a float never looks like an integer. -/
def Layout.exact : Layout := ⟨15, true⟩

/-- Six significant digits: written out below `10 ^ 6`, a whole number without a point. -/
def Layout.general : Layout := ⟨5, false⟩

/-- Drops the trailing zeros of the coefficient, if it is not zero. -/
def Scientific.normalize (s : Scientific) : Scientific :=
  let zeros := ((Nat.toDigits 10 s.coefficient).reverse.takeWhile (· == '0')).length
  ⟨s.coefficient / Nat.pow 10 zeros, s.exponent + zeros⟩

def zeroes (n : Nat) : List Char := List.replicate n '0'

/-- The exponent with its sign and at least two digits. -/
def exponentText (e : Int) : List Char :=
  let ds := Nat.toDigits 10 e.natAbs
  (if e < 0 then '-' else '+') :: (zeroes (2 - ds.length) ++ ds)

/-- The text of a positive decimal. -/
def Layout.write (l : Layout) (s : Scientific) : List Char :=
  let s := s.normalize
  let ds := Nat.toDigits 10 s.coefficient
  let first := s.exponent + ds.length - 1
  if -4 ≤ first && first ≤ l.greatest then
    if first < 0 then '0' :: '.' :: (zeroes (-first - 1).toNat ++ ds)
    else
      let whole := (first + 1).toNat
      if ds.length ≤ whole then
        ds ++ zeroes (whole - ds.length) ++ (if l.keepsPoint then ['.', '0'] else [])
      else ds.take whole ++ '.' :: ds.drop whole
  else
    match ds with
    | [] => []
    | d :: rest =>
      (if rest.isEmpty then [d] else d :: '.' :: rest) ++ 'e' :: exponentText first

def Layout.zero (l : Layout) : List Char :=
  if l.keepsPoint then ['0', '.', '0'] else ['0']

/-- A float under a layout, its digits chosen by `digits`. -/
def Layout.text (l : Layout) (digits : Binary → Scientific) (x : Float) : String :=
  match Binary.ofFloat? x with
  | none => if x.isNaN then "nan" else if x < 0 then "-inf" else "inf"
  | some b =>
    let magnitude := if b.mantissa = 0 then l.zero else l.write (digits b)
    String.ofList (if b.negative then '-' :: magnitude else magnitude)

/-- The decimal of six significant digits nearest to a magnitude that is not zero. -/
def significant (b : Binary) : Scientific :=
  let k := magnitude b.numerator b.denominator - 5
  ⟨roundDiv (b.numerator * Nat.pow 10 (-k).toNat) (b.denominator * Nat.pow 10 k.toNat), k⟩

/-- The shortest text that reads back. -/
def floatText (x : Float) : String :=
  Layout.exact.text shortest x

/-- The text with six significant digits. -/
def generalText (x : Float) : String :=
  Layout.general.text significant x

end DesignTokens.Decimal
