import DesignTokens.Decimal.Binary
import DesignTokens.Text.Case
import DesignTokens.Text.Classes

/-!
Reading numbers from text: blanks at the ends do not count, digits of any script do, and single
underscores may stand between digits.
-/
namespace DesignTokens.Decimal

open Text

/-- A text with a character beyond ASCII has its digits and blanks replaced by ASCII ones first. -/
def plainChar (c : Char) : Char :=
  if c.toNat < 127 then c
  else if isBlank c then ' '
  else match digitValue? c with
    | some d => Char.ofNat (48 + d)
    | none => '?'

def plain (cs : List Char) : List Char :=
  if cs.all fun c => c.toNat < 128 then cs else cs.map plainChar

/-- The blanks that may surround a number once it is in plain form. -/
def isPad (c : Char) : Bool :=
  c == ' ' || (9 ≤ c.toNat && c.toNat ≤ 13)

def trimPad (cs : List Char) : List Char :=
  ((cs.dropWhile isPad).reverse.dropWhile isPad).reverse

/-- Drops underscores, each of which must stand between two digits that `isDigit` knows. -/
def dropUnderscores (isDigit : Char → Bool) (afterDigit : Bool) : List Char → Option (List Char)
  | [] => some []
  | '_' :: c :: cs =>
    if afterDigit && isDigit c then (dropUnderscores isDigit true cs).map (c :: ·) else none
  | c :: cs =>
    if c == '_' then none else (dropUnderscores isDigit (isDigit c) cs).map (c :: ·)

/-- The value of a digit of base sixteen. -/
def hexValue? (c : Char) : Option Nat :=
  if '0' ≤ c && c ≤ '9' then some (c.toNat - 48)
  else if 'a' ≤ c && c ≤ 'f' then some (c.toNat - 87)
  else if 'A' ≤ c && c ≤ 'F' then some (c.toNat - 55)
  else none

def isHex (c : Char) : Bool := (hexValue? c).isSome

/-- The number that a list of digits denotes, `n` standing before it. -/
def digitsFrom (base n : Nat) (cs : List Char) : Nat :=
  cs.foldl (fun n c => n * base + (hexValue? c).getD 0) n

/-- A sign, if there is one. -/
def takeSign : List Char → Bool × List Char
  | '-' :: cs => (true, cs)
  | '+' :: cs => (false, cs)
  | cs => (false, cs)

/-- Integers longer than this are not read. -/
def integerDigitLimit : Nat := 4300

/-- A whole number in base ten. -/
def readInt? (s : String) : Option Int := do
  let (negative, body) := takeSign (trimPad (plain s.toList))
  let ds ← dropUnderscores isAsciiDigit false body
  if ds.isEmpty || !ds.all isAsciiDigit || integerDigitLimit < ds.length then none
  let n : Int := digitsFrom 10 0 ds
  some (if negative then -n else n)

/-- A whole number in base sixteen, with or without its mark `0x`. -/
def readHex? (s : String) : Option Int := do
  let (negative, body) := takeSign (trimPad (plain s.toList))
  let body := match body with
    | '0' :: 'x' :: '_' :: cs => cs
    | '0' :: 'X' :: '_' :: cs => cs
    | '0' :: 'x' :: cs => cs
    | '0' :: 'X' :: cs => cs
    | cs => cs
  let ds ← dropUnderscores isHex false body
  if ds.isEmpty || !ds.all isHex then none
  let n : Int := digitsFrom 16 0 ds
  some (if negative then -n else n)

/-- The float nearest to `coefficient · 10 ^ exponent`: beyond the range it is infinite or zero. -/
def ofDecimal (coefficient : Nat) (exponent : Int) : Float :=
  if coefficient = 0 then 0
  else
    let first := exponent + (Nat.toDigits 10 coefficient).length
    if 400 < first then Float.ofBits 0x7FF0000000000000
    else if first < -400 then 0
    else Float.ofScientific coefficient (decide (exponent < 0)) exponent.natAbs

/-- The exponent part of a float. -/
def readExponent? : List Char → Option Int
  | [] => some 0
  | c :: cs =>
    if c == 'e' || c == 'E' then
      let (negative, ds) := takeSign cs
      if ds.isEmpty || !ds.all isAsciiDigit then none
      else
        let n : Int := digitsFrom 10 0 ds
        some (if negative then -n else n)
    else none

/-- Digits, a point and digits, and an exponent; a digit must stand beside the point. -/
def readMagnitude? (cs : List Char) : Option Float := do
  let whole := cs.takeWhile isAsciiDigit
  let rest := cs.dropWhile isAsciiDigit
  let (fraction, rest) := match rest with
    | '.' :: cs => (cs.takeWhile isAsciiDigit, cs.dropWhile isAsciiDigit)
    | cs => ([], cs)
  if whole.isEmpty && fraction.isEmpty then none
  let e ← readExponent? rest
  some (ofDecimal (digitsFrom 10 (digitsFrom 10 0 whole) fraction) (e - fraction.length))

/-- The names of infinity and of no number, in any case. -/
def readName? (cs : List Char) : Option Float :=
  let name := cs.map Char.toLower
  if name == ['i', 'n', 'f'] || name == ['i', 'n', 'f', 'i', 'n', 'i', 't', 'y'] then
    some (Float.ofBits 0x7FF0000000000000)
  else if name == ['n', 'a', 'n'] then some (Float.ofBits 0x7FF8000000000000)
  else none

/-- A float. -/
def readFloat? (s : String) : Option Float := do
  let cs ← dropUnderscores isAsciiDigit false (trimPad (plain s.toList))
  let (negative, body) := takeSign cs
  let x ← (readName? body).orElse fun _ => readMagnitude? body
  some (if negative then -x else x)

end DesignTokens.Decimal
