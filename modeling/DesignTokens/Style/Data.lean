import DesignTokens.Style
import DesignTokens.Text.Casing
import DesignTokens.Theme.Data

/-!
Styles as data: every field that is set, under its name. A name is written with underscores where
fields are addressed and in camel case where styles are serialized.
-/
namespace DesignTokens

namespace Style

/-- The fields that hold numbers, under their names. -/
def numbers (s : Style Number) : List (String × Option Number) :=
  [("fill_opacity", s.fillOpacity), ("stroke_opacity", s.strokeOpacity),
    ("stroke_weight", s.strokeWeight), ("text_opacity", s.textOpacity), ("font_size", s.fontSize),
    ("font_weight", s.fontWeight.map .int), ("line_height", s.lineHeight),
    ("border_radius", s.radii.whole), ("radius_top", s.radii.top),
    ("radius_right", s.radii.right), ("radius_bottom", s.radii.bottom),
    ("radius_left", s.radii.left), ("radius_top_left", s.radii.topLeft),
    ("radius_top_right", s.radii.topRight), ("radius_bottom_right", s.radii.bottomRight),
    ("radius_bottom_left", s.radii.bottomLeft),
    ("padding", s.padding.whole), ("padding_x", s.padding.x), ("padding_y", s.padding.y),
    ("padding_top", s.padding.top), ("padding_right", s.padding.right),
    ("padding_bottom", s.padding.bottom), ("padding_left", s.padding.left),
    ("margin", s.margin.whole), ("margin_x", s.margin.x), ("margin_y", s.margin.y),
    ("margin_top", s.margin.top), ("margin_right", s.margin.right),
    ("margin_bottom", s.margin.bottom), ("margin_left", s.margin.left),
    ("gap", s.gaps.whole), ("gap_x", s.gaps.x), ("gap_y", s.gaps.y),
    ("width", s.sizes.width), ("height", s.sizes.height), ("min_width", s.sizes.minWidth),
    ("min_height", s.sizes.minHeight), ("max_width", s.sizes.maxWidth),
    ("max_height", s.sizes.maxHeight), ("opacity", s.opacity)]

/-- The number in a field, if the field holds numbers and is set. -/
def number? (s : Style Number) (name : String) : Option Number :=
  (Table.get? name s.numbers).join

def flag (b : Bool) : Option Json := if b then some (.bool true) else none

/-- The fields that hold no numbers, under their names. -/
def others (s : Style Number) : List (String × Option Json) :=
  [("fill_variable", s.fillVariable.map .str), ("no_fill", flag s.noFill),
    ("stroke_variable", s.strokeVariable.map .str), ("has_border", flag s.hasBorder),
    ("border_sides", s.borderSides.map fun sides => Json.ofStrings (sides.map Side.name)),
    ("border_style", s.borderStyle.map fun b => .str b.name),
    ("dash_pattern", s.dashPattern.map fun ns => .arr (ns.map Json.ofNat)),
    ("text_variable", s.textVariable.map .str), ("is_white_text", flag s.isWhiteText),
    ("text_align", s.textAlign.map fun a => .str a.name), ("shadow", s.shadow.map .str),
    ("shadow_layers", s.shadowLayers.map fun ls => .arr (ls.map ShadowLayer.toJson)),
    ("layout_mode", s.layoutMode.map fun m => .str m.name),
    ("align_items", s.alignItems.map fun a => .str a.name),
    ("justify_content", s.justifyContent.map fun j => .str j.name),
    ("wrap", flag s.wrap), ("grow", flag s.grow)]

/-- Every field that is set, under its serialized name. -/
def fields (s : Style Number) : Table Json :=
  (s.numbers.map (fun p => (p.1, p.2.map Json.num)) ++ s.others).filterMap fun (name, v) =>
    v.map fun v => (Text.camelCase name, v)

def toJson (s : Style Number) : Json := .obj s.fields

end Style

namespace Appearance

/-- The fields of the base style, and the states under a name of their own if there are any. -/
def fields (a : Appearance Number) : Table Json :=
  a.base.fields ++
    if a.states.isEmpty then [] else [("states", .obj (Table.mapValues Style.toJson a.states))]

def toJson (a : Appearance Number) : Json := .obj a.fields

/-- Nothing is set, and no state is known. -/
def isEmpty (a : Appearance Number) : Bool := a.fields.isEmpty

end Appearance

end DesignTokens
