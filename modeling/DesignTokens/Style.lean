import DesignTokens.Css.Shadow

/-!
Styles: the visual properties of one element. A field is set only when something set it; a
shorthand and the sides it covers are kept apart, and the accessors `resolved` apply the rule that
the more specific one wins. Lengths are of any type `α` of quantities.
-/
namespace DesignTokens

inductive LayoutMode where
  | horizontal
  | vertical
  deriving DecidableEq, Repr

def LayoutMode.name : LayoutMode → String
  | .horizontal => "HORIZONTAL"
  | .vertical => "VERTICAL"

inductive AlignItems where
  | min
  | center
  | max
  | stretch
  | baseline
  deriving DecidableEq, Repr

def AlignItems.name : AlignItems → String
  | .min => "MIN"
  | .center => "CENTER"
  | .max => "MAX"
  | .stretch => "STRETCH"
  | .baseline => "BASELINE"

inductive JustifyContent where
  | min
  | center
  | max
  | spaceBetween
  deriving DecidableEq, Repr

def JustifyContent.name : JustifyContent → String
  | .min => "MIN"
  | .center => "CENTER"
  | .max => "MAX"
  | .spaceBetween => "SPACE_BETWEEN"

inductive TextAlign where
  | left
  | center
  | right
  | justified
  deriving DecidableEq, Repr

def TextAlign.name : TextAlign → String
  | .left => "LEFT"
  | .center => "CENTER"
  | .right => "RIGHT"
  | .justified => "JUSTIFIED"

inductive BorderStyle where
  | solid
  | dashed
  | dotted
  | double
  deriving DecidableEq, Repr

def BorderStyle.name : BorderStyle → String
  | .solid => "solid"
  | .dashed => "dashed"
  | .dotted => "dotted"
  | .double => "double"

inductive Side where
  | top
  | right
  | bottom
  | left
  deriving DecidableEq, Repr

def Side.name : Side → String
  | .top => "top"
  | .right => "right"
  | .bottom => "bottom"
  | .left => "left"

inductive Axis where
  | x
  | y
  deriving DecidableEq, Repr

/-- The sides that an axis covers. -/
def Axis.sides : Axis → List Side
  | .x => [.right, .left]
  | .y => [.top, .bottom]

/-- The axis that covers a side. -/
def Side.axis : Side → Axis
  | .top | .bottom => .y
  | .right | .left => .x

inductive Corner where
  | topLeft
  | topRight
  | bottomRight
  | bottomLeft
  deriving DecidableEq, Repr

def Corner.all : List Corner := [.topLeft, .topRight, .bottomRight, .bottomLeft]

/-- The top or bottom side of a corner. -/
def Corner.vertical : Corner → Side
  | .topLeft | .topRight => .top
  | .bottomRight | .bottomLeft => .bottom

/-- The left or right side of a corner. -/
def Corner.horizontal : Corner → Side
  | .topLeft | .bottomLeft => .left
  | .topRight | .bottomRight => .right

variable {α : Type}

/-- Which lengths of a box a token addresses. -/
inductive BoxPart where
  | whole
  | axis (a : Axis)
  | side (s : Side)
  deriving DecidableEq, Repr

/-- Lengths around a box: on all sides, on two opposite sides, on one side. -/
structure Box (α : Type) where
  whole : Option α := none
  x : Option α := none
  y : Option α := none
  top : Option α := none
  right : Option α := none
  bottom : Option α := none
  left : Option α := none
  deriving DecidableEq, Repr

namespace Box

def get (b : Box α) : BoxPart → Option α
  | .whole => b.whole
  | .axis .x => b.x
  | .axis .y => b.y
  | .side .top => b.top
  | .side .right => b.right
  | .side .bottom => b.bottom
  | .side .left => b.left

def set (v : α) (b : Box α) : BoxPart → Box α
  | .whole => { b with whole := some v }
  | .axis .x => { b with x := some v }
  | .axis .y => { b with y := some v }
  | .side .top => { b with top := some v }
  | .side .right => { b with right := some v }
  | .side .bottom => { b with bottom := some v }
  | .side .left => { b with left := some v }

/-- A side beats its axis, and an axis beats all sides. -/
def resolved (b : Box α) (s : Side) : Option α :=
  b.get (.side s) <|> b.get (.axis s.axis) <|> b.whole

theorem get_set (v : α) (b : Box α) (p q : BoxPart) :
    (b.set v p).get q = if q = p then some v else b.get q := by
  cases p with
  | whole => cases q with
    | whole => rfl
    | axis a => cases a <;> rfl
    | side s => cases s <;> rfl
  | axis a => cases a <;> cases q with
    | whole => rfl
    | axis a => cases a <;> rfl
    | side s => cases s <;> rfl
  | side s => cases s <;> cases q with
    | whole => rfl
    | axis a => cases a <;> rfl
    | side s => cases s <;> rfl

end Box

/-- Which gaps a token addresses. -/
inductive GapPart where
  | whole
  | axis (a : Axis)
  deriving DecidableEq, Repr

/-- Gaps between children: in both directions, and in each. -/
structure Gaps (α : Type) where
  whole : Option α := none
  x : Option α := none
  y : Option α := none
  deriving DecidableEq, Repr

namespace Gaps

def get (g : Gaps α) : GapPart → Option α
  | .whole => g.whole
  | .axis .x => g.x
  | .axis .y => g.y

def set (v : α) (g : Gaps α) : GapPart → Gaps α
  | .whole => { g with whole := some v }
  | .axis .x => { g with x := some v }
  | .axis .y => { g with y := some v }

/-- The gap of an axis beats the common one. -/
def resolved (g : Gaps α) (a : Axis) : Option α := g.get (.axis a) <|> g.whole

theorem get_set (v : α) (g : Gaps α) (p q : GapPart) :
    (g.set v p).get q = if q = p then some v else g.get q := by
  cases p with
  | whole => cases q with
    | whole => rfl
    | axis a => cases a <;> rfl
  | axis a => cases a <;> cases q with
    | whole => rfl
    | axis a => cases a <;> rfl

end Gaps

/-- Which corners a radius addresses. -/
inductive RadiusPart where
  | whole
  | side (s : Side)
  | corner (c : Corner)
  deriving DecidableEq, Repr

/-- Corner radii: of all corners, of the two corners of a side, of one corner. -/
structure Radii (α : Type) where
  whole : Option α := none
  top : Option α := none
  right : Option α := none
  bottom : Option α := none
  left : Option α := none
  topLeft : Option α := none
  topRight : Option α := none
  bottomRight : Option α := none
  bottomLeft : Option α := none
  deriving DecidableEq, Repr

namespace Radii

def get (r : Radii α) : RadiusPart → Option α
  | .whole => r.whole
  | .side .top => r.top
  | .side .right => r.right
  | .side .bottom => r.bottom
  | .side .left => r.left
  | .corner .topLeft => r.topLeft
  | .corner .topRight => r.topRight
  | .corner .bottomRight => r.bottomRight
  | .corner .bottomLeft => r.bottomLeft

def set (v : α) (r : Radii α) : RadiusPart → Radii α
  | .whole => { r with whole := some v }
  | .side .top => { r with top := some v }
  | .side .right => { r with right := some v }
  | .side .bottom => { r with bottom := some v }
  | .side .left => { r with left := some v }
  | .corner .topLeft => { r with topLeft := some v }
  | .corner .topRight => { r with topRight := some v }
  | .corner .bottomRight => { r with bottomRight := some v }
  | .corner .bottomLeft => { r with bottomLeft := some v }

/-- A corner beats its sides, the top or bottom side beats the left or right one, and either beats
all corners. -/
def resolved (r : Radii α) (c : Corner) : Option α :=
  r.get (.corner c) <|> r.get (.side c.vertical) <|> r.get (.side c.horizontal) <|> r.whole

/-- Whether two radii are the same: of equal value, or one and the same. -/
def alike [BEq α] [DecidableEq α] (a b : Option α) : Bool :=
  match a, b with
  | some a, some b => a == b || decide (a = b)
  | none, none => true
  | _, _ => false

/-- Whether all four corners have the same radius. -/
def uniform [BEq α] [DecidableEq α] (r : Radii α) : Bool :=
  Corner.all.all fun c => alike (r.resolved .topLeft) (r.resolved c)

end Radii

/-- The lengths that bound an element. -/
inductive SizePart where
  | width
  | height
  | minWidth
  | minHeight
  | maxWidth
  | maxHeight
  deriving DecidableEq, Repr

structure Sizes (α : Type) where
  width : Option α := none
  height : Option α := none
  minWidth : Option α := none
  minHeight : Option α := none
  maxWidth : Option α := none
  maxHeight : Option α := none
  deriving DecidableEq, Repr

namespace Sizes

def get (s : Sizes α) : SizePart → Option α
  | .width => s.width
  | .height => s.height
  | .minWidth => s.minWidth
  | .minHeight => s.minHeight
  | .maxWidth => s.maxWidth
  | .maxHeight => s.maxHeight

def set (v : α) (s : Sizes α) : SizePart → Sizes α
  | .width => { s with width := some v }
  | .height => { s with height := some v }
  | .minWidth => { s with minWidth := some v }
  | .minHeight => { s with minHeight := some v }
  | .maxWidth => { s with maxWidth := some v }
  | .maxHeight => { s with maxHeight := some v }

theorem get_set (v : α) (s : Sizes α) (p q : SizePart) :
    (s.set v p).get q = if q = p then some v else s.get q := by
  cases p <;> cases q <;> rfl

end Sizes

/-- The visual properties of one element in one state. -/
structure Style (α : Type) where
  fillVariable : Option String := none
  fillOpacity : Option α := none
  noFill : Bool := false
  strokeVariable : Option String := none
  strokeOpacity : Option α := none
  hasBorder : Bool := false
  strokeWeight : Option α := none
  borderSides : Option (List Side) := none
  borderStyle : Option BorderStyle := none
  dashPattern : Option (List Nat) := none
  textVariable : Option String := none
  textOpacity : Option α := none
  isWhiteText : Bool := false
  fontSize : Option α := none
  fontWeight : Option Int := none
  lineHeight : Option α := none
  textAlign : Option TextAlign := none
  radii : Radii α := {}
  padding : Box α := {}
  margin : Box α := {}
  gaps : Gaps α := {}
  sizes : Sizes α := {}
  opacity : Option α := none
  shadow : Option String := none
  shadowLayers : Option (List ShadowLayer) := none
  layoutMode : Option LayoutMode := none
  alignItems : Option AlignItems := none
  justifyContent : Option JustifyContent := none
  wrap : Bool := false
  grow : Bool := false
  deriving Repr

/-- The style of an element and the styles of its states, in the order of their first tokens. -/
structure Appearance (α : Type) where
  base : Style α := {}
  states : Table (Style α) := []
  deriving Repr

end DesignTokens
