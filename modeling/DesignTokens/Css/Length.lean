import DesignTokens.Decimal.Reader
import DesignTokens.Decimal.Rounding
import DesignTokens.Text.Case
import DesignTokens.Text.Words

/-!
Lengths and font weights. A length is a decimal in `px`, `rem` or `em`, or without a unit, and is
kept in px to three decimal places.
-/
namespace DesignTokens.Css

open Text

/-- Font size of the root element unless a project sets another. -/
def defaultRootFontSize : Float := 16

def remToPx (rem root : Float) : Float := Decimal.roundPlaces (rem * root) 3

/-- A decimal without exponent at the start of a text: digits with or without a point and more
digits, or a point and digits. -/
def takeDecimal (cs : List Char) : List Char × List Char :=
  let whole := cs.takeWhile isDecimal
  let rest := cs.dropWhile isDecimal
  match rest with
  | '.' :: tail =>
    let fraction := tail.takeWhile isDecimal
    if whole.isEmpty && fraction.isEmpty then ([], cs)
    else (whole ++ '.' :: fraction, tail.dropWhile isDecimal)
  | _ => (whole, rest)

/-- What a unit makes of a number. -/
def inUnit (unit : String) (number root : Float) : Option Float :=
  if unit == "rem" || unit == "em" then some (remToPx number root)
  else if unit == "px" || unit == "" then some (Decimal.roundPlaces number 3)
  else none

/-- A length in px. -/
def parseLength (value : String) (root : Float) : Option Float := do
  let cs := (lower (trim value)).toList
  let (sign, body) := match cs with
    | '-' :: cs => (['-'], cs)
    | cs => ([], cs)
  let (number, unit) := takeDecimal body
  if number.isEmpty then none
  let x ← Decimal.readFloat? (String.ofList (sign ++ number))
  inUnit (String.ofList unit) x root

/-- A font weight is an integer from 1 to 1000. -/
def parseWeight (value : String) : Option Int := do
  let w ← Decimal.readInt? (trim value)
  if 1 ≤ w && w ≤ 1000 then some w else none

end DesignTokens.Css
