import DesignTokens.Matrix.Expand
import DesignTokens.Scene.Drawing

/-!
Emission of matrices into a scene. Each mode section is a frame with a title, labels and the cells;
the sections of one component stand at one height, and those of the next one below the highest.
-/
namespace DesignTokens

namespace Scene

open DesignTokens.Matrix (nonzero ModeSection PlacedCell rootElement)

def titleFontSize : Number := 16

def labelFontSize : Number := 11

def whiteTextToken : String := "color-white"

/-- The marks that a style gives its node: a fill and a stroke if they show, and a radius if it is
the same at all corners. -/
def styleMarks {α : Type} (s : Style Number) : List (Mark α) :=
  let fill := if s.noFill then none else s.fillVariable.filter (· != "")
  let stroke := if s.hasBorder then s.strokeVariable.filter (· != "") else none
  let radius := if s.radii.uniform then s.radii.resolved .topLeft else none
  (fill.map Mark.fill).toList ++
    (stroke.map fun token => Mark.stroke token (.given ((nonzero s.strokeWeight).getD 1))).toList ++
    (radius.map fun r => Mark.cornerRadius (.given r)).toList

/-- The color of a style's text. -/
def textMarks {α : Type} (s : Style Number) : List (Mark α) :=
  match s.textVariable.filter (· != "") with
  | some token => [.textColor token]
  | none => if s.isWhiteText then [.textColor whiteTextToken] else []

variable {α : Type}

def label (text : String) (x y : α) (fontSize : Number) : Drawing α :=
  .node (.text text (.laid x) (.laid y) (.given fontSize)) [] []

/-- The text of a cell's root. -/
def cellText (component : String) (root : Style Number) : Drawing α :=
  .node (.text component (.given 0) (.given 0)
    (.given ((nonzero root.fontSize).getD labelFontSize))) (textMarks root) []

/-- The frame of an element below the root. -/
def elementFrame (name : String) (s : Style Number) : Drawing α :=
  .node (.frame name (.given 0) (.given 0) (.given ((nonzero s.sizes.width).getD 0))
    (.given ((nonzero s.sizes.height).getD 0))) (styleMarks s) []

section

variable [Add α]

/-- The component node of a cell, with its text and its elements. -/
def cellDrawing (component : String) (m : ModeSection α) (c : PlacedCell α) : Drawing α :=
  let elements := c.styles.filter fun (name, _) => name != rootElement
  .node (.component (if c.name == "" then component else c.name) (.laid (m.contentX + c.x))
      (.laid (m.contentY + c.y)) (.laid c.extent.width) (.laid c.extent.height))
    (styleMarks c.rootStyle)
    (cellText component c.rootStyle :: elements.map fun (name, a) => elementFrame name a.base)

/-- What stands in the frame of a section; it does not depend on the section's place. -/
def sectionContent (titleY : α) (r : Matrix α) (m : ModeSection α) : List (Drawing α) :=
  label r.component m.contentX titleY titleFontSize ::
    ((r.grid.cols.filter (·.label != "")).map fun t =>
      label t.label (m.contentX + t.offset) m.contentY labelFontSize) ++
    ((r.grid.rows.filter (·.label != "")).map fun t =>
      label t.label m.contentX (m.contentY + t.offset) labelFontSize) ++
    r.grid.cells.map (cellDrawing r.component m)

/-- The frame of a section at a height. -/
def sectionDrawing (titleY : α) (r : Matrix α) (y : α) (m : ModeSection α) : Drawing α :=
  .node (.frame (r.component ++ " (" ++ m.mode ++ ")") (.laid m.x) (.laid y) (.laid m.width)
    (.laid m.height)) [] (sectionContent titleY r m)

variable [Zero α] [Max α]

/-- The height at which the component after this one stands. -/
def nextY (k : Matrix.Constants α) (y : α) (r : Matrix α) : α := y + r.height + k.sectionGap

/-- Each matrix with its height, from `y` on. -/
def placed (k : Matrix.Constants α) (y : α) : List (Matrix α) → List (Matrix α × α)
  | [] => []
  | r :: rs => (r, y) :: placed k (nextY k y r) rs

/-- The drawings of all sections of all matrices. -/
def drawings (k : Matrix.Constants α) (rs : List (Matrix α)) : List (Drawing α) :=
  (placed k k.startY rs).flatMap fun (r, y) =>
    r.sections.map (sectionDrawing k.sectionPadding r y)

end

end Scene

/-- What an emission makes: a scene, the height of each component, where a further one would stand,
and how many nodes were asked for. -/
structure Emission (α : Type) where
  scene : Scene α
  placements : Table α
  endY : α
  nodeCount : Nat

namespace Emission

variable {α : Type} [Add α] [Zero α] [Max α]

/-- Emits matrices into a scene, after what is there. -/
def into (k : Matrix.Constants α) (rs : List (Matrix α)) (s : Scene α) :
    Except Scene.UnknownNode (Emission α) := do
  let scene ← Scene.drawAll (Scene.drawings k rs) s
  return {
    scene
    placements := Table.ofPairs
      ((Scene.placed k k.startY rs).map fun (r, y) => (r.component, y))
    endY := rs.foldl (Scene.nextY k) k.startY
    nodeCount := Scene.Drawing.sizeAll (Scene.drawings k rs)
  }

/-- Emits matrices into an empty scene. -/
def ofMatrices (k : Matrix.Constants α) (rs : List (Matrix α)) :
    Except Scene.UnknownNode (Emission α) :=
  into k rs {}

end Emission

end DesignTokens
