import DesignTokens.Diagnostic
import DesignTokens.Matrix.Grid

/-!
Checks of a layout. A grid passes when each of its positions has one cell, each cell agrees with its
row and its column and does not exceed them, and no track starts before the one in front of it ends.
Mode sections pass when they are copies of the first and stand at the right distance.
-/
namespace DesignTokens.Matrix

inductive Direction where
  | row
  | column
  deriving DecidableEq, Repr

def Direction.name : Direction → String
  | .row => "row"
  | .column => "column"

/-- The invariant that a layout breaks. -/
inductive Violation (α : Type) where
  | cellCount (cells rows cols : Nat)
  | sharedPosition (row col : Int)
  /-- A cell has the size or the place of another track than its own. -/
  | trackMismatch (cell : String) (direction : Direction) (index : Int) (found expected : α)
  | overflow (cell : String)
  | overlap (direction : Direction) (index previous : Int)
  | notACopy (mode first : String)
  | wrongDistance (mode : String)
  deriving DecidableEq, Repr

def Violation.message {α : Type} : Violation α → String
  | .cellCount cells rows cols =>
    toString cells ++ " cells for a " ++ toString rows ++ "x" ++ toString cols ++ " grid"
  | .sharedPosition row col =>
    "two cells occupy row " ++ toString row ++ ", column " ++ toString col
  | .trackMismatch cell direction index _ _ =>
    "cell " ++ cell ++ " disagrees with " ++ direction.name ++ " " ++ toString index ++ " geometry"
  | .overflow cell => "cell " ++ cell ++ " overflows its track"
  | .overlap direction index previous =>
    direction.name ++ " " ++ toString index ++ " overlaps " ++ direction.name ++ " " ++
      toString previous
  | .notACopy mode first => "mode section " ++ mode ++ " is not a copy of " ++ first
  | .wrongDistance mode => "mode section " ++ mode ++ " is not offset by the mode gap"

def Violation.details : Violation Number → Table Json
  | .trackMismatch _ .row _ found expected =>
    [("row_height", .num found), ("expected", .num expected)]
  | .trackMismatch _ .column _ found expected =>
    [("col_width", .num found), ("expected", .num expected)]
  | _ => []

def Violation.diagnostic (component : Option String) (v : Violation Number) : Diagnostic :=
  .layout v.message component v.details

/-- Why a check fails: a violation, or a cell whose row or column does not exist. -/
inductive CheckFault (α : Type) where
  | violation (v : Violation α)
  | noTrack
  deriving DecidableEq, Repr

variable {α : Type} [Add α] [LT α] [DecidableLT α] [BEq α]

/-- The check of one cell against its row and its column. -/
def checkCell (rows cols : List (Track α)) (c : PlacedCell α) : Except (CheckFault α) Unit :=
  match item? rows c.row, item? cols c.col with
  | some row, some col =>
    if c.rowHeight != row.size || c.y != row.offset then
      .error (.violation (.trackMismatch c.name .row row.index c.rowHeight row.size))
    else if c.colWidth != col.size || c.x != col.offset then
      .error (.violation (.trackMismatch c.name .column col.index c.colWidth col.size))
    else if row.size < c.extent.height || col.size < c.extent.width then
      .error (.violation (.overflow c.name))
    else .ok ()
  | _, _ => .error .noTrack

/-- The check of the cells after those at the positions `seen`. -/
def checkCells (rows cols : List (Track α)) (seen : List (Int × Int)) :
    List (PlacedCell α) → Except (CheckFault α) Unit
  | [] => .ok ()
  | c :: cs =>
    if seen.contains (c.row, c.col) then .error (.violation (.sharedPosition c.row c.col))
    else do
      checkCell rows cols c
      checkCells rows cols ((c.row, c.col) :: seen) cs

/-- No track starts before the one in front of it ends. -/
def checkTracks (direction : Direction) : List (Track α) → Except (CheckFault α) Unit
  | a :: b :: rest =>
    if b.offset < a.finish then .error (.violation (.overlap direction b.index a.index))
    else checkTracks direction (b :: rest)
  | _ => .ok ()

/-- The first violation of a grid, if there is one. -/
def checkGrid (g : Grid α) : Except (CheckFault α) Unit := do
  if g.cells.length != g.rows.length * g.cols.length then
    .error (.violation (.cellCount g.cells.length g.rows.length g.cols.length))
  checkCells g.rows g.cols [] g.cells
  checkTracks .row g.rows
  checkTracks .column g.cols

/-- The same length, or one of equal value. -/
def alike [DecidableEq α] (a b : α) : Bool := a == b || decide (a = b)

/-- Sections share their size and their left offset, which may even be no number; the upper offset
has to be of equal value. -/
def ModeSection.isCopy [DecidableEq α] (s first : ModeSection α) : Bool :=
  alike s.width first.width && alike s.height first.height && alike s.contentX first.contentX &&
    s.contentY == first.contentY

/-- Each section is a copy of `first` and stands at the right distance from the one before. -/
def checkSectionsAfter [DecidableEq α] (k : Constants α) (first previous : ModeSection α) :
    List (ModeSection α) → Except (Violation α) Unit
  | [] => .ok ()
  | s :: rest =>
    if !s.isCopy first then .error (.notACopy s.mode first.mode)
    else if s.x != previous.x + previous.width + k.modeGap then .error (.wrongDistance s.mode)
    else checkSectionsAfter k first s rest

def checkSections [DecidableEq α] (k : Constants α) : List (ModeSection α) →
    Except (Violation α) Unit
  | [] => .ok ()
  | first :: rest => checkSectionsAfter k first first rest

end DesignTokens.Matrix
