import DesignTokens.Css.Property
import DesignTokens.Diagnostic
import DesignTokens.Theme.Snapshot

/-!
Building a snapshot from style sheets. The framework must declare every expected token in a form
that can be read, and the first one that fails ends the build; the project may override any token
the framework has, and an override that cannot be read is passed over.
-/
namespace DesignTokens.Theme

/-- Which tokens a framework must declare, and how they are named. -/
structure Spec where
  spacingVariable : String := "--spacing"
  spacingKeys : List String :=
    ["0", "px", "0.5", "1", "1.5", "2", "2.5", "3", "3.5", "4", "4.5", "5", "6", "6.5", "7", "8",
      "9", "10", "11", "12", "14", "16", "20", "24", "28", "32", "36", "40", "44", "48", "52",
      "56", "60", "64", "72", "80", "96"]
  radiusLead : String := "--radius-"
  radiusKeys : List String := ["xs", "sm", "md", "lg", "xl", "2xl", "3xl", "4xl"]
  fontSizeLead : String := "--text-"
  fontSizeKeys : List String :=
    ["xs", "sm", "base", "lg", "xl", "2xl", "3xl", "4xl", "5xl", "6xl", "7xl", "8xl", "9xl"]
  fontWeightLead : String := "--font-weight-"
  fontWeightKeys : List String :=
    ["thin", "extralight", "light", "normal", "medium", "semibold", "bold", "extrabold", "black"]
  shadowLead : String := "--shadow-"
  shadowKeys : List String := ["2xs", "xs", "sm", "md", "lg", "xl", "2xl"]
  rootFontSize : Float := Css.defaultRootFontSize
  /-- Radii that a framework implies without declaring them. -/
  fixedRadii : Table Float := [("none", 0), ("full", 9999)]
  defaultRadiusKey : String := "sm"
  deriving Repr

/-- The form that a token's value must have. -/
inductive Shape where
  | length
  | weight
  | shadow
  deriving DecidableEq, Repr

def Shape.text : Shape → String
  | .length => "length in px or rem"
  | .weight => "integer weight 1-1000"
  | .shadow => "shadow layers 'x y [blur [spread]] color'"

/-- Why a framework does not build. -/
inductive Fault where
  | missing (token source : String)
  | invalid (token value source : String) (shape : Shape)
  /-- A spacing key that is no number. -/
  | scaleKey (key : String)
  /-- A base unit in rem needs a root font size other than zero. -/
  | zeroRoot
  deriving DecidableEq, Repr

/-- A fault of a style sheet, as opposed to one of the specification. -/
def Fault.diagnostic? : Fault → Option Diagnostic
  | .missing token source => some (.missingToken token source)
  | .invalid token value source shape => some (.invalidToken token value source shape.text)
  | _ => none

/-- The value of a token that must be declared and readable. -/
def require {α : Type} (props : Table String) (source token : String) (shape : Shape)
    (parse : String → Option α) : Except Fault α :=
  match Table.get? token props with
  | none => .error (.missing token source)
  | some raw => match parse raw with
    | some v => .ok v
    | none => .error (.invalid token raw source shape)

/-- One step of the spacing scale: `px` is one pixel, any other key a multiple of the base unit. -/
def spacingStep (basePx : Float) (key : String) : Except Fault Float :=
  if key == "px" then .ok 1
  else match Decimal.readFloat? key with
    | some k => .ok (Decimal.roundPlaces (k * basePx) 3)
    | none => .error (.scaleKey key)

/-- A table with one entry for each key. -/
def tabulate {α ε : Type} (keys : List String) (f : String → Except ε α) : Except ε (Table α) := do
  let pairs ← keys.mapM fun key => do return (key, ← f key)
  return Table.ofPairs pairs

def parseSpacing (props : Table String) (keys : List String) (source variableName : String)
    (root : Float) : Except Fault SpacingScale := do
  let basePx ← require props source variableName .length (Css.parseLength · root)
  let scale ← tabulate keys (spacingStep basePx)
  if root == 0 then .error .zeroRoot
  else return ⟨basePx, Decimal.roundPlaces (basePx / root) 6, scale⟩

/-- Lengths under a common lead, for radii and font sizes. -/
def parseLengths (props : Table String) (keys : List String) (source lead : String) (root : Float) :
    Except Fault (Table Float) :=
  tabulate keys fun key => require props source (lead ++ key) .length (Css.parseLength · root)

def parseWeights (props : Table String) (keys : List String) (source lead : String) :
    Except Fault (Table Int) :=
  tabulate keys fun key => require props source (lead ++ key) .weight Css.parseWeight

def parseShadows (props : Table String) (keys : List String) (source lead : String) (root : Float) :
    Except Fault (Table ShadowPreset) :=
  tabulate keys fun key => require props source (lead ++ key) .shadow (Css.parseShadow key · root)

namespace Spec

/-- The radii of a framework: the fixed ones, the declared ones, and the default one. -/
def allRadii (spec : Spec) (declared : Table Float) : Table Float :=
  let radii := declared.foldl (fun t (k, v) => Table.put k v t) spec.fixedRadii
  match Table.get? spec.defaultRadiusKey declared with
  | some px => Table.put "DEFAULT" px radii
  | none => radii

/-- The scales of a framework. -/
def framework (spec : Spec) (props : Table String) (source : String) : Except Fault Scales := do
  let root := spec.rootFontSize
  let spacing ← parseSpacing props spec.spacingKeys source spec.spacingVariable root
  let radii ← parseLengths props spec.radiusKeys source spec.radiusLead root
  let fontSize ← parseLengths props spec.fontSizeKeys source spec.fontSizeLead root
  let fontWeight ← parseWeights props spec.fontWeightKeys source spec.fontWeightLead
  let shadows ← parseShadows props spec.shadowKeys source spec.shadowLead root
  return ⟨spacing, spec.allRadii radii, fontSize, fontWeight, shadows⟩

end Spec

/-- Replaces each value whose token the project declares in a form that can be read. Only keys that
are there already are looked up, so a project's colours never enter a numeric scale. -/
def override {α : Type} (props : Table String) (lead : String) (parse : String → String → Option α)
    (defaults : Table α) : Table α :=
  defaults.map fun (key, v) =>
    (key, ((Table.get? (lead ++ key) props).bind (parse key)).getD v)

namespace Spec

/-- The spacing after overrides: all of it is derived anew from a base unit that can be read. -/
def overrideSpacing (spec : Spec) (props : Table String) (source : String) (spacing : SpacingScale) :
    Except Fault SpacingScale :=
  match Table.get? spec.spacingVariable props with
  | none => .ok spacing
  | some raw => match Css.parseLength raw spec.rootFontSize with
    | none => .ok spacing
    | some _ => parseSpacing props spec.spacingKeys source spec.spacingVariable spec.rootFontSize

/-- The radii after overrides; the default one follows the key it stands for. -/
def overrideRadii (spec : Spec) (props : Table String) (radii : Table Float) : Table Float :=
  let radii := override props spec.radiusLead (fun _ raw => Css.parseLength raw spec.rootFontSize)
    radii
  match Table.get? spec.defaultRadiusKey radii with
  | some px => Table.put "DEFAULT" px radii
  | none => radii

/-- The scales that remain after a project's overrides. -/
def computed (spec : Spec) (base : Scales) (props : Table String) (source : String) :
    Except Fault Scales := do
  let root := spec.rootFontSize
  let spacing ← spec.overrideSpacing props source base.spacing
  return {
    spacing
    borderRadius := spec.overrideRadii props base.borderRadius
    fontSize := override props spec.fontSizeLead (fun _ raw => Css.parseLength raw root)
      base.fontSize
    fontWeight := override props spec.fontWeightLead (fun _ raw => Css.parseWeight raw)
      base.fontWeight
    shadows := override props spec.shadowLead (fun key raw => Css.parseShadow key raw root)
      base.shadows
  }

/-- The snapshot of a framework and, unless it is absent or empty, a project. -/
def build (spec : Spec) (framework : String) (project : Option String)
    (frameworkSource projectSource : String) : Except Fault Snapshot := do
  let base ← spec.framework (Css.customProperties framework) frameworkSource
  match project.filter (· != "") with
  | none => return ⟨base, base, [.str frameworkSource]⟩
  | some css =>
    let scales ← spec.computed base (Css.customProperties css) projectSource
    return ⟨base, scales, [.str frameworkSource, .str projectSource]⟩

end Spec

end DesignTokens.Theme
