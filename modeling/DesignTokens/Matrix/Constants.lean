import DesignTokens.Json.Access

/-!
Constants of layout: paddings, gaps and label sizes of sections and grids, in lengths of any kind.
-/
namespace DesignTokens.Matrix

structure Constants (α : Type) where
  sectionPadding : α
  sectionGap : α
  startX : α
  startY : α
  modeGap : α
  titleHeight : α
  gapX : α
  gapY : α
  headerRowHeight : α
  labelColumnWidth : α
  labelFontSize : α
  /-- The width of a character for each unit of the font size. -/
  charWidthRatio : α
  deriving DecidableEq, Repr

namespace Constants

def default : Constants Number where
  sectionPadding := 24
  sectionGap := 48
  startX := 100
  startY := 100
  modeGap := 50
  titleHeight := 32
  gapX := 24
  gapY := 40
  headerRowHeight := 24
  labelColumnWidth := 120
  labelFontSize := 11
  charWidthRatio := .float 0.6

/-- The constants of a configuration object; an absent name keeps its default. -/
def ofJson (v : Json) : Except Json.Mismatch (Constants Number) := do
  let read (name : String) (default : Number) : Except Json.Mismatch Number := do
    if ← v.mentions name then return .float (← (← v.member name).toFloat) else return default
  return {
    sectionPadding := ← read "sectionPadding" default.sectionPadding
    sectionGap := ← read "sectionGap" default.sectionGap
    startX := ← read "startX" default.startX
    startY := ← read "startY" default.startY
    modeGap := ← read "modeGap" default.modeGap
    titleHeight := ← read "titleHeight" default.titleHeight
    gapX := ← read "gapX" default.gapX
    gapY := ← read "gapY" default.gapY
    headerRowHeight := ← read "headerRowHeight" default.headerRowHeight
    labelColumnWidth := ← read "labelColumnWidth" default.labelColumnWidth
    labelFontSize := ← read "labelFontSize" default.labelFontSize
    charWidthRatio := ← read "charWidthRatio" default.charWidthRatio
  }

def toJson (c : Constants Number) : Json :=
  .obj [("sectionPadding", .num c.sectionPadding), ("sectionGap", .num c.sectionGap),
    ("startX", .num c.startX), ("startY", .num c.startY), ("modeGap", .num c.modeGap),
    ("titleHeight", .num c.titleHeight), ("gapX", .num c.gapX), ("gapY", .num c.gapY),
    ("headerRowHeight", .num c.headerRowHeight), ("labelColumnWidth", .num c.labelColumnWidth),
    ("labelFontSize", .num c.labelFontSize), ("charWidthRatio", .num c.charWidthRatio)]

end Constants

end DesignTokens.Matrix
