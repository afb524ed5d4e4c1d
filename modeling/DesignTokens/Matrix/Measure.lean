import DesignTokens.Matrix.Cell
import DesignTokens.Matrix.Constants

/-!
Measuring cells. A width or height that a style sets counts as it is; any other is that of the text
with padding and border, within the bounds that the style sets. The elements below the root are
stacked, with the root's vertical gap between them.
-/
namespace DesignTokens.Matrix

/-- The height of a line where no font size is known. -/
def defaultLineHeight : Number := .float 20

def lineHeightRatio : Number := .float 1.5

/-- Zero counts as unset. -/
def nonzero (n : Option Number) : Option Number := n.filter fun n => !n.isZero

def orZero (n : Option Number) : Number := (nonzero n).getD (.float 0)

/-- The value within its bounds; the lower one wins. -/
def clamp (v : Number) (lower upper : Option Number) : Number :=
  let v := match upper with
    | some u => min v u
    | none => v
  match lower with
  | some l => max v l
  | none => v

/-- The width of an element with a text. -/
def elementWidth (c : Constants Number) (s : Style Number) (text : String) : Number :=
  match s.sizes.width with
  | some w => w
  | none =>
    let border := if s.hasBorder then orZero s.strokeWeight else .float 0
    let fontSize := (nonzero s.fontSize).getD c.labelFontSize
    let textWidth := .int text.length * fontSize * c.charWidthRatio
    clamp (textWidth + orZero (s.padding.resolved .left) + orZero (s.padding.resolved .right) +
      2 * border) s.sizes.minWidth s.sizes.maxWidth

/-- The height of an element with one line of text. -/
def elementHeight (s : Style Number) : Number :=
  match s.sizes.height with
  | some h => h
  | none =>
    let border := if s.hasBorder then orZero s.strokeWeight else .float 0
    let line := match nonzero s.lineHeight with
      | some l => l
      | none => match nonzero s.fontSize with
        | some f => f * lineHeightRatio
        | none => defaultLineHeight
    clamp (line + orZero (s.padding.resolved .top) + orZero (s.padding.resolved .bottom) +
      2 * border) s.sizes.minHeight s.sizes.maxHeight

/-- The extent of an element; neither side is below zero. -/
def elementExtent (c : Constants Number) (s : Style Number) (text : String) : Extent Number :=
  ⟨max (elementWidth c s text) (.float 0), max (elementHeight s) (.float 0)⟩

/-- The extent of a cell whose root shows a text and whose other elements show their names. -/
def measure (c : Constants Number) (styles : Styles) (text : String) : Extent Number :=
  let root := ((Table.get? rootElement styles).getD {}).base
  let gap := orZero (root.gaps.resolved .y)
  let below := styles.filter fun (name, _) => name != rootElement
  let total := below.foldl (fun (e : Extent Number) (name, a) =>
    let sub := elementExtent c a.base name
    ⟨max e.width sub.width, e.height + (gap + sub.height)⟩) (elementExtent c root text)
  ⟨total.width.round 3, total.height.round 3⟩

end DesignTokens.Matrix
