import DesignTokens.Css.Length
import DesignTokens.Json.Access

/-!
Settings of the utility parser: which colours are tokens, which words mean no fill or white text,
and which variants are states.
-/
namespace DesignTokens.Utility

/-- A list of words as a configuration file writes it; what is no word does not count. -/
def wordsOfJson (v : Json) : List String :=
  match v with
  | .arr items => items.filterMap fun x => match x with
    | .str s => some s
    | _ => none
  | .str s => s.toList.map String.singleton
  | .obj fields => Table.keys fields
  | _ => []

structure Settings where
  fillLead : String := "color-"
  strokeLead : String := "color-"
  textLead : String := "text-color-"
  /-- Only `<namespace>-<name>` is a colour token. -/
  colorNamespaces : List String := ["kumo"]
  noFillKeywords : List String := ["transparent", "inherit", "none"]
  whiteTextKeywords : List String := ["white"]
  stateVariants : List String := ["hover", "focus", "active", "disabled", "pressed"]
  rootFontSize : Float := Css.defaultRootFontSize
  deriving Repr

namespace Settings

/-- The settings of a configuration object; an absent name keeps its default. -/
def ofJson (v : Json) : Except Json.Mismatch Settings := do
  let d : Settings := {}
  let fields ← v.fields "get"
  let text (name default : String) := ((Table.get? name fields).map Json.plainText).getD default
  let words (name : String) (default : List String) :=
    ((Table.get? name fields).map wordsOfJson).getD default
  let root ← ((Table.get? "rootFontSizePx" fields).getD (.ofFloat d.rootFontSize)).toFloat
  return {
    fillLead := text "fillVariablePrefix" d.fillLead
    strokeLead := text "strokeVariablePrefix" d.strokeLead
    textLead := text "textVariablePrefix" d.textLead
    colorNamespaces := words "colorNamespaces" d.colorNamespaces
    noFillKeywords := words "noFillKeywords" d.noFillKeywords
    whiteTextKeywords := words "whiteTextKeywords" d.whiteTextKeywords
    stateVariants := words "stateVariants" d.stateVariants
    rootFontSize := root
  }

/-- A colour token: the name of a namespace, a hyphen, and at least one more character. -/
def isColor (s : Settings) (value : String) : Bool :=
  s.colorNamespaces.any fun n =>
    Text.startsWith value (n ++ "-") && decide (n.length + 1 < value.length)

end Settings

end DesignTokens.Utility
