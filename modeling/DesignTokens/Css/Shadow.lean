import DesignTokens.Css.Color
import DesignTokens.Css.Length
import DesignTokens.Json.Value

/-!
Box shadows. A shadow is a list of layers; a layer has two to four lengths, a colour, and the word
`inset` when it is drawn inside.
-/
namespace DesignTokens

/-- One layer of a box shadow, in px. A data file may hold any value as its colour. -/
structure ShadowLayer where
  offsetX : Float
  offsetY : Float
  blur : Float
  spread : Float
  opacity : Float
  color : Json
  inset : Bool
  deriving Repr

/-- A named shadow. -/
structure ShadowPreset where
  name : String
  layers : List ShadowLayer
  deriving Repr

namespace Css

open Text

/-- A layer starts with a length, with or without `inset` before it. -/
def startsLayer (cs : List Char) : Bool :=
  let cs := cs.dropWhile isBlank
  let cs := match cs with
    | 'i' :: 'n' :: 's' :: 'e' :: 't' :: c :: tail =>
      if isBlank c then tail.dropWhile isBlank else cs
    | cs => cs
  let cs := match cs with
    | '-' :: tail => tail
    | cs => cs
  match cs with
  | '.' :: c :: _ => isDecimal c
  | c :: _ => isDecimal c
  | [] => false

/-- The depth of parentheses after a character; a stray closing one does not count. -/
def depthAfter (depth : Nat) (c : Char) : Nat :=
  if c == '(' then depth + 1 else if c == ')' then depth - 1 else depth

/-- The layers of a shadow, where `part` holds the characters of the current one, last one first.
Only a comma outside parentheses that is followed by the start of a layer separates two layers. -/
def layersFrom (depth : Nat) (part : List Char) : List Char → List (List Char)
  | [] =>
    let tail := trimChars part.reverse
    if tail.isEmpty then [] else [tail]
  | c :: cs =>
    if c == ',' && depth == 0 && startsLayer cs then
      trimChars part.reverse :: layersFrom 0 [] cs
    else layersFrom (depthAfter depth c) (c :: part) cs

def splitLayers (value : String) : List String :=
  (layersFrom 0 [] value.toList).map String.ofList

/-- The words of a layer; white space inside parentheses does not separate. -/
def partsFrom (depth : Nat) (part : List Char) : List Char → List (List Char)
  | [] => if part.isEmpty then [] else [part.reverse]
  | c :: cs =>
    let depth := depthAfter depth c
    if isBlank c && depth == 0 then
      if part.isEmpty then partsFrom depth [] cs else part.reverse :: partsFrom depth [] cs
    else partsFrom depth (c :: part) cs

def splitParts (value : String) : List String :=
  (partsFrom 0 [] value.toList).map String.ofList

/-- What the words of a layer say so far. -/
structure LayerParts where
  lengths : List Float := []
  color : String := "rgb(0 0 0)"
  inset : Bool := false
  deriving Repr

/-- A word is `inset`, one of the first four lengths, or the colour; the last colour counts. -/
def LayerParts.add (root : Float) (p : LayerParts) (part : String) : LayerParts :=
  if lower part == "inset" then { p with inset := true }
  else match parseLength part root with
    | some px => if p.lengths.length < 4 then { p with lengths := p.lengths ++ [px] }
      else { p with color := part }
    | none => { p with color := part }

/-- One layer; it needs two lengths and a colour whose opacity can be read. -/
def parseLayer (value : String) (root : Float) : Option ShadowLayer := do
  let p := (splitParts value).foldl (LayerParts.add root) {}
  match p.lengths with
  | x :: y :: more =>
    let opacity ← (colorOpacity p.color).toOption
    some ⟨x, y, more.getD 0 0, more.getD 1 0, opacity, .str p.color, p.inset⟩
  | _ => none

/-- A whole shadow: at least one layer, and each of them can be read. -/
def parseShadow (name value : String) (root : Float) : Option ShadowPreset := do
  let layers ← (splitLayers value).mapM (parseLayer · root)
  if layers.isEmpty then none else some ⟨name, layers⟩

end Css

end DesignTokens
