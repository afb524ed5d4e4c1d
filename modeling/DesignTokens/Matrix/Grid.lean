import DesignTokens.Matrix.Cell
import DesignTokens.Matrix.Constants

/-!
Grids. Each row is as high as its highest cell and each column as wide as its widest one. The rows
start below the header row and the columns to the right of the label column; the configured gaps
separate them. A mode section is a copy of a grid for one display mode; the copies stand side by
side, and differ in their mode and their place alone.
-/
namespace DesignTokens.Matrix

/-- A place among `n` items; a negative one is counted from the end. -/
def place? (n : Nat) (i : Int) : Option Nat :=
  if 0 ≤ i then (if i < n then some i.toNat else none)
  else if 0 ≤ i + n then some (i + n).toNat
  else none

def item? {β : Type} (xs : List β) (i : Int) : Option β :=
  (place? xs.length i).bind fun k => xs[k]?

structure Grid (α : Type) where
  rows : List (Track α)
  cols : List (Track α)
  cells : List (PlacedCell α)
  deriving Repr

variable {α : Type} [Add α] [Zero α] [Max α]

/-- The offset of each track, and the one that a further track would have. -/
def offsets (start gap : α) : List α → List α
  | [] => [start]
  | size :: sizes => start :: offsets (start + (size + gap)) gap sizes

/-- Tracks one after the other, with a gap between them. -/
def tracks (sizes : List α) (labels : List String) (start gap : α) : List (Track α) :=
  ((sizes.zip labels).zip (offsets start gap sizes)).zipIdx.map fun (((size, label), offset), i) =>
    ⟨i, offset, size, label⟩

/-- The greatest of some lengths, and none of them below zero. -/
def greatest (xs : List α) : α := xs.foldl max 0

/-- For each of `n` tracks the greatest size of the cells on it. -/
def trackSizes (n : Nat) (place : Cell α → Int) (size : Cell α → α) (cells : List (Cell α)) :
    List α :=
  (List.range n).map fun k =>
    greatest ((cells.filter fun c => place? n (place c) == some k).map size)

def rowTracks (k : Constants α) (labels : List String) (cells : List (Cell α)) : List (Track α) :=
  tracks (trackSizes labels.length (·.row) (·.extent.height) cells) labels
    (k.headerRowHeight + k.gapY) k.gapY

def colTracks (k : Constants α) (labels : List String) (cells : List (Cell α)) : List (Track α) :=
  tracks (trackSizes labels.length (·.col) (·.extent.width) cells) labels
    (k.labelColumnWidth + k.gapX) k.gapX

/-- A cell in its row and its column, if there are such. -/
def Cell.placeIn? (rows cols : List (Track α)) (c : Cell α) : Option (PlacedCell α) := do
  let row ← item? rows c.row
  let col ← item? cols c.col
  some { c with rowHeight := row.size, colWidth := col.size, x := col.offset, y := row.offset }

/-- The grid of some cells, unless a cell lies outside. -/
def Grid.ofCells? (k : Constants α) (rowLabels colLabels : List String) (cells : List (Cell α)) :
    Option (Grid α) := do
  let rows := rowTracks k rowLabels cells
  let cols := colTracks k colLabels cells
  some ⟨rows, cols, ← cells.mapM (Cell.placeIn? rows cols)⟩

namespace Grid

/-- The end of the last column. -/
def width (g : Grid α) : α := (g.cols.getLast?.map Track.finish).getD 0

def height (g : Grid α) : α := (g.rows.getLast?.map Track.finish).getD 0

end Grid

/-! ### Mode sections -/

structure ModeSection (α : Type) where
  mode : String
  x : α
  width : α
  height : α
  contentX : α
  contentY : α
  deriving DecidableEq, Repr

/-- The size of a section: the grid with padding on all sides and the band of the title. -/
def sectionExtent (k : Constants α) (g : Grid α) : Extent α :=
  ⟨g.width + (k.sectionPadding + k.sectionPadding),
    k.titleHeight + g.height + (k.sectionPadding + k.sectionPadding)⟩

/-- Sections of one size from `x` on. -/
def ModeSection.series (k : Constants α) (size : Extent α) (x : α) : List String → List (ModeSection α)
  | [] => []
  | mode :: modes =>
    ⟨mode, x, size.width, size.height, k.sectionPadding, k.sectionPadding + k.titleHeight⟩ ::
      series k size (x + size.width + k.modeGap) modes

/-- One section for each mode. -/
def ModeSection.ofModes (k : Constants α) (modes : List String) (g : Grid α) : List (ModeSection α) :=
  series k (sectionExtent k g) k.startX modes

end DesignTokens.Matrix
