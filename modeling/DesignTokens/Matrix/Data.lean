import DesignTokens.Matrix.Expand

/-!
Matrices as data.
-/
namespace DesignTokens.Matrix

def Track.toJson (t : Track Number) : Json :=
  .obj [("index", Json.ofInt t.index), ("offset", .num t.offset), ("size", .num t.size),
    ("label", t.label)]

def ModeSection.toJson (s : ModeSection Number) : Json :=
  .obj [("mode", s.mode), ("x", .num s.x), ("width", .num s.width), ("height", .num s.height),
    ("contentX", .num s.contentX), ("contentY", .num s.contentY)]

def PlacedCell.fields (c : PlacedCell Number) : Table Json :=
  [("name", .str c.name), ("row", Json.ofInt c.row), ("col", Json.ofInt c.col), ("x", .num c.x),
    ("y", .num c.y), ("width", .num c.extent.width), ("height", .num c.extent.height),
    ("rowHeight", .num c.rowHeight), ("colWidth", .num c.colWidth),
    ("styles", .obj (Table.mapValues Appearance.toJson c.styles))]

def toJson (m : Matrix Number) : Json :=
  .obj [("component", m.component),
    ("rowAxes", Json.ofStrings (m.assignment.rowAxes.map (·.name))),
    ("colAxes", Json.ofStrings (m.assignment.colAxes.map (·.name))),
    ("rows", .arr (m.grid.rows.map Track.toJson)), ("cols", .arr (m.grid.cols.map Track.toJson)),
    ("sections", .arr (m.sections.map ModeSection.toJson)),
    ("cells", .arr (m.grid.cells.map fun c => .obj c.fields))]

end DesignTokens.Matrix
