import DesignTokens.Matrix.Combination
import DesignTokens.Style.Data

/-!
Cells and tracks of a variant matrix. A cell is one combination with its styles and its place; a
track is one row or one column.
-/
namespace DesignTokens.Matrix

/-- The name of the element that every cell has. -/
def rootElement : String := "root"

structure Extent (α : Type) where
  width : α
  height : α
  deriving DecidableEq, Repr

structure Track (α : Type) where
  index : Int
  offset : α
  size : α
  label : String
  deriving DecidableEq, Repr

def Track.finish {α : Type} [Add α] (t : Track α) : α := t.offset + t.size

/-- The styles of a cell's elements, under the elements' names. -/
abbrev Styles := Table (Appearance Number)

/-- A cell before it is laid out. -/
structure Cell (α : Type) where
  values : Combination
  styles : Styles
  row : Int
  col : Int
  rowLabel : String
  colLabel : String
  extent : Extent α
  warnings : List String
  deriving Repr

/-- A cell in its place, with the sizes of its row and its column. -/
structure PlacedCell (α : Type) extends Cell α where
  rowHeight : α
  colWidth : α
  x : α
  y : α
  deriving Repr

namespace Cell

variable {α : Type}

def name (c : Cell α) : String := label c.values

def key (c : Cell α) : List String := c.values.map fun p => p.2.key

/-- The style of the root element. -/
def rootStyle (c : Cell α) : Style Number :=
  ((Table.get? rootElement c.styles).getD {}).base

/-- By row, then by column. -/
def le (a b : Cell α) : Bool :=
  if a.row < b.row then true else if b.row < a.row then false else decide (a.col ≤ b.col)

end Cell

end DesignTokens.Matrix
