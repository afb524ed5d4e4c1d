import DesignTokens.Theme.Snapshot

/-!
Snapshots as data: the layout of the theme data file, its reading, and the lookup of a value by a
dotted path.
-/
namespace DesignTokens

namespace ShadowLayer

/-- The word `inset` appears only on a layer that is inset. -/
def toJson (l : ShadowLayer) : Json :=
  .obj ([("offsetX", Json.ofFloat l.offsetX), ("offsetY", Json.ofFloat l.offsetY),
    ("blur", Json.ofFloat l.blur), ("spread", Json.ofFloat l.spread),
    ("opacity", Json.ofFloat l.opacity), ("color", l.color)] ++
    if l.inset then [("inset", .bool true)] else [])

def ofJson (v : Json) : Except Json.Mismatch ShadowLayer := do
  let offsetX ← (← v.member "offsetX").toFloat
  let offsetY ← (← v.member "offsetY").toFloat
  let blur ← (← v.memberD "blur" (.ofFloat 0)).toFloat
  let spread ← (← v.memberD "spread" (.ofFloat 0)).toFloat
  let opacity ← (← v.memberD "opacity" (.ofFloat 1)).toFloat
  let color ← v.memberD "color" "rgb(0 0 0)"
  let inset ← v.memberD "inset" (.bool false)
  return ⟨offsetX, offsetY, blur, spread, opacity, color, inset.truthy⟩

end ShadowLayer

namespace ShadowPreset

def toJson (p : ShadowPreset) : Json :=
  .obj [("layers", .arr (p.layers.map ShadowLayer.toJson))]

def ofJson (name : String) (v : Json) : Except Json.Mismatch ShadowPreset := do
  let layers ← (← (← v.member "layers").items).mapM ShadowLayer.ofJson
  return ⟨name, layers⟩

end ShadowPreset

namespace Theme

/-- Every value of an object, under the object's names. -/
def readTable {α : Type} (v : Json) (read : String → Json → Except Json.Mismatch α) :
    Except Json.Mismatch (Table α) := do
  (← v.fields "items").mapM fun (k, x) => do return (k, ← read k x)

def floatsToJson (t : Table Float) : Json := .obj (Table.mapValues Json.ofFloat t)

namespace SpacingScale

def toJson (s : SpacingScale) : Json :=
  .obj [("baseUnit", Json.ofFloat s.baseUnitRem), ("baseUnitPx", Json.ofFloat s.baseUnitPx),
    ("scale", floatsToJson s.scale)]

def ofJson (v : Json) : Except Json.Mismatch SpacingScale := do
  let px ← (← v.member "baseUnitPx").toFloat
  let rem ← (← v.memberD "baseUnit" (.ofFloat 0)).toFloat
  let scale ← readTable (← v.memberD "scale" (.obj [])) fun _ x => x.toFloat
  return ⟨px, rem, scale⟩

end SpacingScale

namespace Scales

def toJson (s : Scales) : Json :=
  .obj [("spacing", s.spacing.toJson), ("borderRadius", floatsToJson s.borderRadius),
    ("fontSize", floatsToJson s.fontSize),
    ("fontWeight", .obj (Table.mapValues Json.ofInt s.fontWeight)),
    ("shadows", .obj (Table.mapValues ShadowPreset.toJson s.shadows))]

def ofJson (v : Json) : Except Json.Mismatch Scales := do
  let spacing ← SpacingScale.ofJson (← v.member "spacing")
  let borderRadius ← readTable (← v.member "borderRadius") fun _ x => x.toFloat
  let fontSize ← readTable (← v.member "fontSize") fun _ x => x.toFloat
  let fontWeight ← readTable (← v.member "fontWeight") fun _ x => x.toInt
  let shadows ← readTable (← v.memberD "shadows" (.obj [])) ShadowPreset.ofJson
  return ⟨spacing, borderRadius, fontSize, fontWeight, shadows⟩

end Scales

namespace Snapshot

/-- The two layers under the names they have in the theme data file. -/
def layers (s : Snapshot) : Table Json :=
  [("tailwind", s.framework.toJson), ("computed", s.computed.toJson)]

def toJson (s : Snapshot) : Json := .obj s.layers

def ofJson (v : Json) : Except Json.Mismatch Snapshot := do
  let framework ← Scales.ofJson (← v.member "tailwind")
  let computed ← Scales.ofJson (← v.member "computed")
  let sources ← (← v.memberD "_sources" (.arr [])).items
  return ⟨framework, computed, sources⟩

/-- The value under a path such as `spacing.baseUnitPx` in the computed layer, or in the layer that
the path names first. -/
def lookup (s : Snapshot) (path : String) : Except Json.Mismatch Json :=
  let parts := Text.splitOn path '.'
  let (start, parts) := match parts with
    | first :: rest => match Table.get? first s.layers with
      | some layer => (layer, rest)
      | none => (s.computed.toJson, parts)
    | [] => (s.computed.toJson, [])
  parts.foldlM (fun v part => v.member part) start

end Snapshot

end Theme

end DesignTokens
