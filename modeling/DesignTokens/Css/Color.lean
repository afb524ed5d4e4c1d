import DesignTokens.Decimal.Reader
import DesignTokens.Decimal.Rounding
import DesignTokens.Text.Quoted
import DesignTokens.Text.Words

/-!
The opacity of a colour: the part after a slash, the fourth argument of `rgba` and `hsla`, the last
two of eight hexadecimal digits. A colour that states none is opaque.
-/
namespace DesignTokens.Css

open Text

/-- An opacity that is there but is no number. -/
inductive ColorFault where
  | noFloat (text : String)
  | noHex (text : String)
  deriving DecidableEq, Repr

def ColorFault.message : ColorFault → String
  | .noFloat t => "could not convert string to float: " ++ quote t
  | .noHex t => "invalid literal for int() with base 16: " ++ quote t

/-- An alpha as written and whether it is a percentage. -/
structure Alpha where
  text : String
  percent : Bool
  deriving DecidableEq, Repr

/-- Alphas are kept to four decimal places. -/
def Alpha.value (a : Alpha) : Except ColorFault Float :=
  match Decimal.readFloat? a.text with
  | some x => .ok (Decimal.roundPlaces (if a.percent then x / 100 else x) 4)
  | none => .error (.noFloat a.text)

def isAlphaChar (c : Char) : Bool := isDecimal c || c == '.'

/-- An alpha that follows a slash and ends its argument list. -/
def slashAlpha? (cs : List Char) : Option Alpha :=
  let cs := cs.dropWhile isBlank
  let (sign, body) := match cs with
    | '-' :: cs => (['-'], cs)
    | cs => ([], cs)
  let digits := body.takeWhile isAlphaChar
  let rest := body.dropWhile isAlphaChar
  let (percent, rest) := match rest with
    | '%' :: cs => (true, cs)
    | cs => (false, cs)
  match digits, rest.dropWhile isBlank with
  | _ :: _, ')' :: _ => some ⟨String.ofList (sign ++ digits), percent⟩
  | _, _ => none

/-- The first slash with an alpha. -/
def findAlpha? : List Char → Option Alpha
  | [] => none
  | '/' :: cs => (slashAlpha? cs).orElse fun _ => findAlpha? cs
  | _ :: cs => findAlpha? cs

/-- The arguments of `rgba` or `hsla`, when the colour is nothing else. -/
def arguments? (color : String) : Option (List String) := do
  let body ← (after? "rgba(" color).orElse fun _ => after? "hsla(" color
  match body.toList.dropWhile (· != ')') with
  | [')'] => some ((splitOn (String.ofList (body.toList.takeWhile (· != ')'))) ',').map trim)
  | _ => none

/-- A last argument as an alpha. -/
def Alpha.ofArgument (text : String) : Alpha :=
  match text.toList.reverse with
  | '%' :: cs => ⟨String.ofList cs.reverse, true⟩
  | _ => ⟨text, false⟩

/-- Opacity of eight hexadecimal digits after a number sign. -/
def hexOpacity (digits : String) : Except ColorFault Float :=
  match Decimal.readHex? digits with
  | some n => .ok (Decimal.roundPlaces (Float.ofInt n / 255) 4)
  | none => .error (.noHex digits)

/-- What is left when no alpha is written with a slash or as an argument. -/
def plainOpacity (color : String) : Except ColorFault Float :=
  let cs := color.toList
  if cs.head? == some '#' && cs.length == 9 then hexOpacity (String.ofList (cs.drop 7))
  else if color == "transparent" then .ok 0
  else .ok 1

def colorOpacity (color : String) : Except ColorFault Float :=
  let color := lower (trim color)
  match findAlpha? color.toList with
  | some a => a.value
  | none =>
    match arguments? color with
    | some [_, _, _, a] => (Alpha.ofArgument a).value
    | _ => plainOpacity color

end DesignTokens.Css
