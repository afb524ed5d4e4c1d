import DesignTokens.Css.Shadow
import DesignTokens.Json.Access

/-!
Theme snapshots. A snapshot holds two sets of scales: those of the framework, and the computed ones
that remain after the project's overrides. Everything downstream reads the computed ones.
-/
namespace DesignTokens.Theme

/-- The spacing unit and the named scale derived from it. -/
structure SpacingScale where
  baseUnitPx : Float
  baseUnitRem : Float
  scale : Table Float
  deriving DecidableEq, Repr

/-- A named step, or a multiple of the base unit; neither a negative nor an infinite one. -/
def SpacingScale.resolve (s : SpacingScale) (key : String) : Option Float :=
  match Table.get? key s.scale with
  | some px => some px
  | none => do
    let multiplier ← Decimal.readFloat? key
    if multiplier < 0 || !Decimal.isFinite multiplier then none
    some (Decimal.roundPlaces (multiplier * s.baseUnitPx) 3)

/-- One complete set of numeric scales. -/
structure Scales where
  spacing : SpacingScale
  borderRadius : Table Float
  fontSize : Table Float
  fontWeight : Table Int
  shadows : Table ShadowPreset
  deriving Repr

/-- The resolved tokens of one run, and the names of the sources they come from. -/
structure Snapshot where
  framework : Scales
  computed : Scales
  sources : List Json
  deriving Repr

end DesignTokens.Theme
