import DesignTokens.Matrix.Check
import DesignTokens.Matrix.Measure
import DesignTokens.Matrix.Styling

/-!
Expanding a component: a cell for each combination of its axis values, the cells in a grid, and the
grid once for each display mode. The layout is checked before it is returned.
-/
namespace DesignTokens

namespace Matrix

/-- Why a component has no matrix. -/
inductive Fault (α : Type) where
  | unknownAxes (u : UnknownAxes)
  | violation (component : String) (v : Violation α)
  /-- A length is beyond every number. -/
  | lost
  deriving Repr

/-- How cells get their styles and extents, and how they are laid out. -/
structure Generator (α : Type) where
  constants : Constants α
  modes : List String
  /-- The axes that are to index the rows of a component. -/
  rowAxes : Table (List String)
  /-- The styles of the elements of a cell, and what was dropped from their classes. -/
  styles : Component → Combination → Styles × List String
  extent : Styles → String → Extent α
  /-- Whether a length is beyond every number; of exact lengths none is. -/
  isLost : α → Bool

end Matrix

/-- The cells, tracks and mode sections of a component. -/
structure Matrix (α : Type) where
  component : String
  assignment : Matrix.Assignment
  grid : Matrix.Grid α
  sections : List (Matrix.ModeSection α)
  deriving Repr

namespace Matrix

variable {α : Type}

/-- The cell at a position, where the cells stand row by row. -/
def cellAt? (m : Matrix α) (row col : Nat) : Option (PlacedCell α) :=
  m.grid.cells[row * m.grid.cols.length + col]?

/-- The height of the highest section. -/
def height [Zero α] [Max α] (m : Matrix α) : α :=
  match m.sections.map (·.height) with
  | [] => 0
  | h :: hs => hs.foldl max h

/-- The distance from the start of the first section to the end of the last. -/
def width [Zero α] [Add α] [Sub α] (m : Matrix α) : α :=
  match m.sections.head?, m.sections.getLast? with
  | some first, some last => last.x + last.width - first.x
  | _, _ => 0

namespace Generator

variable (g : Generator α)

/-- The cell of a combination. -/
def cell (c : Component) (a : Assignment) (values : Combination) : Cell α :=
  let (styles, warnings) := g.styles c values
  { values
    styles
    row := trackIndex a.rowAxes values
    col := trackIndex a.colAxes values
    rowLabel := label (restrict a.rowAxes values)
    colLabel := label (restrict a.colAxes values)
    extent := g.extent styles c.name
    warnings }

/-- The cells of a component, row by row. -/
def cells (c : Component) (a : Assignment) : List (Cell α) :=
  ((combinations c.axes).map (g.cell c a)).mergeSort Cell.le

variable [Add α] [Zero α] [Max α] [LT α] [DecidableLT α] [BEq α] [DecidableEq α]

/-- Refuses lengths that are lost. -/
def keep (lengths : List α) : Except (Fault α) Unit :=
  if lengths.any g.isLost then .error .lost else .ok ()

/-- The offset that a track after the last one would have. -/
def nextOffset (gap : α) (ts : List (Track α)) : List α :=
  (ts.getLast?.map fun t => t.offset + (t.size + gap)).toList

def gridLengths (m : Grid α) : List α :=
  m.rows.map (·.offset) ++ m.cols.map (·.offset) ++ nextOffset g.constants.gapY m.rows ++
    nextOffset g.constants.gapX m.cols

/-- The lengths of the sections, and the place that a further one would have. -/
def sectionLengths (ss : List (ModeSection α)) : List α :=
  ss.flatMap fun s => [s.width, s.height, s.contentY, s.x + s.width + g.constants.modeGap]

/-- Lays cells out and checks the result. -/
def layOut (component : String) (a : Assignment) (cells : List (Cell α)) :
    Except (Fault α) (Matrix α) := do
  g.keep (cells.flatMap fun c => [c.extent.width, c.extent.height])
  match Grid.ofCells? g.constants (trackLabels a.rowAxes) (trackLabels a.colAxes) cells with
  | none => .error .lost
  | some grid =>
    g.keep (g.gridLengths grid)
    match checkGrid grid with
    | .error (.violation v) => .error (.violation component v)
    | .error .noTrack => .error .lost
    | .ok () =>
      let size := sectionExtent g.constants grid
      g.keep [size.width, size.height]
      let ss := ModeSection.ofModes g.constants g.modes grid
      g.keep (g.sectionLengths ss)
      match checkSections g.constants ss with
      | .error v => .error (.violation component v)
      | .ok () => return ⟨component, a, grid, ss⟩

/-- The matrix of a component. -/
def expand (c : Component) : Except (Fault α) (Matrix α) := do
  let a ← (assign c (Table.get? c.name g.rowAxes)).mapError .unknownAxes
  g.layOut c.name a (g.cells c a)

end Generator

/-- The styles of a cell: the root's classes are the base classes and those of the values, filled up
from the component's styling; a sub-component with base classes has a style of its own. -/
def resolveStyles (scales : Theme.Scales) (settings : Utility.Settings) (c : Component)
    (values : Combination) : Styles × List String :=
  let classes := c.baseClasses.getD "" :: values.map fun (name, v) =>
    ((c.axis? name).bind fun a => a.classFor? v.key).getD ""
  let parsed := Utility.parse scales settings
    (String.intercalate " " (classes.filter (· != "")))
  let root := { parsed.appearance with base := parsed.appearance.base.fillFrom c.styling }
  c.subComponents.foldl (fun (styles, warnings) (name, sub) =>
    match sub.baseClasses.filter (· != "") with
    | none => (styles, warnings)
    | some classes =>
      let parsed := Utility.parse scales settings classes
      (Table.put name parsed.appearance styles,
        warnings ++ parsed.warnings.map fun w => name ++ ": " ++ w.text))
    ([(rootElement, root)], parsed.warnings.map (·.text))

def defaultModes : List String := ["light", "dark"]

/-- Generation under a theme. -/
def Generator.ofTheme (scales : Theme.Scales) (settings : Utility.Settings)
    (constants : Constants Number) (modes : List String) (rowAxes : Table (List String)) :
    Generator Number where
  constants
  modes
  rowAxes
  styles := resolveStyles scales settings
  extent := measure constants
  isLost := Number.isOverflow

/-- The diagnostic of a fault; a lost length has none. -/
def Fault.diagnostic? : Fault Number → Option Diagnostic
  | .unknownAxes u => some u.diagnostic
  | .violation component v => some (v.diagnostic component)
  | .lost => none

end Matrix

end DesignTokens
