import DesignTokens.Registry.Component

/-!
Registries as data.
-/
namespace DesignTokens

def textsToJson (t : Table String) : Json := Json.ofPairs (Table.mapValues .str t)

namespace VariantAxis

def toJson (a : VariantAxis) : Json :=
  .obj [("name", a.name), ("values", .arr (a.values.map AxisValue.toJson)),
    ("default", a.default.toJson), ("type", a.type), ("classes", textsToJson a.classes),
    ("descriptions", textsToJson a.descriptions), ("valueKeys", .ofStrings a.keys)]

end VariantAxis

def SubComponent.toJson (s : SubComponent) : Json :=
  .obj [("name", s.name), ("description", s.description),
    ("base_classes", .ofOption (s.baseClasses.map .str))]

def Component.toJson (c : Component) : Json :=
  .obj [("name", c.name), ("description", c.description), ("category", c.category),
    ("axes", .arr (c.axes.map VariantAxis.toJson)), ("colors", .ofStrings c.colors),
    ("baseClasses", .ofOption (c.baseClasses.map .str)),
    ("subComponents", .ofPairs (Table.mapValues SubComponent.toJson c.subComponents)),
    ("styling", .ofPairs c.styling), ("otherProps", .ofPairs c.otherProps),
    ("variantCount", .ofNat c.variantCount)]

def Registry.toJson (r : Registry) : Json :=
  .obj [("components", .arr ((Table.values r.components).map Component.toJson)),
    ("names", .ofStrings r.names), ("categories", .ofStrings r.categories),
    ("colors", .ofStrings r.colors), ("source", r.source)]

end DesignTokens
