import DesignTokens.Proofs.Matrix.Filled
import Mathlib

/-!
Soundness of the check of a grid, however the grid came about: a grid that passes has one cell at each
of its places, every cell lies in its row and its column, and no two cells overlap.
-/
namespace DesignTokens.Matrix

/-! ### Boxes -/

/-- A rectangle by its upper left corner and its size. -/
structure Box where
  x : ℚ
  y : ℚ
  width : ℚ
  height : ℚ

namespace Box

/-- The points within a box, without its border. -/
def interior (b : Box) : Set (ℚ × ℚ) :=
  Set.Ioo b.x (b.x + b.width) ×ˢ Set.Ioo b.y (b.y + b.height)

/-- One of the boxes ends before the other one starts, in one of the two directions. -/
def Apart (a b : Box) : Prop :=
  (a.x + a.width ≤ b.x ∨ b.x + b.width ≤ a.x) ∨ a.y + a.height ≤ b.y ∨ b.y + b.height ≤ a.y

theorem Apart.disjoint_interior {a b : Box} (h : a.Apart b) : Disjoint a.interior b.interior := by
  rw [Set.disjoint_left]
  rintro p ⟨⟨hax, hax'⟩, hay, hay'⟩ ⟨⟨hbx, hbx'⟩, hby, hby'⟩
  rcases h with (h | h) | h | h <;> linarith

/-- The box lies between the ends of a row and of a column. -/
structure Within (b : Box) (row col : Track ℚ) : Prop where
  left : col.offset ≤ b.x
  right : b.x + b.width ≤ col.finish
  top : row.offset ≤ b.y
  bottom : b.y + b.height ≤ row.finish

/-- Boxes in two rows, or in two columns, are apart where these do not overlap. -/
theorem Within.apart {a b : Box} {row col row' col' : Track ℚ} (ha : a.Within row col)
    (hb : b.Within row' col')
    (h : (col.finish ≤ col'.offset ∨ col'.finish ≤ col.offset) ∨
      row.finish ≤ row'.offset ∨ row'.finish ≤ row.offset) : a.Apart b := by
  rcases h with (h | h) | h | h
  · exact .inl (.inl (ha.right.trans (h.trans hb.left)))
  · exact .inl (.inr (hb.right.trans (h.trans ha.left)))
  · exact .inr (.inl (ha.bottom.trans (h.trans hb.top)))
  · exact .inr (.inr (hb.bottom.trans (h.trans ha.top)))

end Box

def PlacedCell.box (c : PlacedCell ℚ) : Box := ⟨c.x, c.y, c.extent.width, c.extent.height⟩

theorem PlacedCell.LiesIn.within {c : PlacedCell ℚ} {row col : Track ℚ} (h : c.LiesIn row col) :
    c.box.Within row col := by
  have hheight := not_lt.mp h.height
  have hwidth := not_lt.mp h.width
  refine ⟨h.x.ge, ?_, h.y.ge, ?_⟩
  · rw [PlacedCell.box, h.x, Track.finish]
    linarith
  · rw [PlacedCell.box, h.y, Track.finish]
    linarith

/-! ### Grids that pass -/

/-- No place of a cell is counted from the end. -/
def Grid.Forward {α : Type} (g : Grid α) : Prop := ∀ c ∈ g.cells, 0 ≤ c.row ∧ 0 ≤ c.col

theorem item?_lt {β : Type} {xs : List β} {i : Int} {x : β} (hi : 0 ≤ i)
    (h : item? xs i = some x) : i < xs.length := by
  obtain ⟨n, rfl⟩ := Int.eq_ofNat_of_zero_le hi
  rw [item?_natCast] at h
  have hn := (List.getElem?_eq_some_iff.mp h).1
  omega

/-- Of two tracks at different places one ends before the other starts. -/
theorem finish_le_offset {ts : List (Track ℚ)}
    (h : ts.Pairwise fun a b => a.finish ≤ b.offset) {i j : Int} (hi : 0 ≤ i) (hj : 0 ≤ j)
    (hne : i ≠ j) {a b : Track ℚ} (ha : item? ts i = some a) (hb : item? ts j = some b) :
    a.finish ≤ b.offset ∨ b.finish ≤ a.offset := by
  obtain ⟨m, rfl⟩ := Int.eq_ofNat_of_zero_le hi
  obtain ⟨n, rfl⟩ := Int.eq_ofNat_of_zero_le hj
  rw [item?_natCast] at ha hb
  obtain ⟨hm, rfl⟩ := List.getElem?_eq_some_iff.mp ha
  obtain ⟨hn, rfl⟩ := List.getElem?_eq_some_iff.mp hb
  rcases Nat.lt_or_gt_of_ne (by omega : m ≠ n) with hlt | hlt
  · exact .inl (List.pairwise_iff_getElem.mp h m n hm hn hlt)
  · exact .inr (List.pairwise_iff_getElem.mp h n m hn hm hlt)

section

variable {g : Grid ℚ}

/-- What the check has found out about the cells of a grid. -/
theorem cells_of_checkGrid (h : checkGrid g = .ok ()) :
    (g.cells.map (·.place)).Nodup ∧ ∀ c ∈ g.cells, ∃ row col, item? g.rows c.row = some row ∧
      item? g.cols c.col = some col ∧ c.LiesIn row col := by
  obtain ⟨⟨-, hcells⟩, -, -⟩ := checkGrid_eq_ok_iff.mp h
  obtain ⟨hnodup, -, hall⟩ := checkCells_eq_ok_iff.mp hcells
  exact ⟨hnodup, fun c hc => checkCell_eq_ok_iff.mp (hall c hc)⟩

theorem fills_of_checkGrid (hforward : g.Forward) (h : checkGrid g = .ok ()) :
    Fills g.rows.length g.cols.length (g.cells.map (·.place)) := by
  obtain ⟨hnodup, hall⟩ := cells_of_checkGrid h
  refine fills_of_nodup hnodup ?_ ?_
  · intro p hp
    obtain ⟨c, hc, rfl⟩ := List.mem_map.mp hp
    obtain ⟨hr, hk⟩ := hforward c hc
    obtain ⟨row, col, hrow, hcol, -⟩ := hall c hc
    exact ⟨⟨hr, item?_lt hr hrow⟩, hk, item?_lt hk hcol⟩
  · rw [List.length_map]
    exact (checkGrid_eq_ok_iff.mp h).1.1

theorem pairwise_apart_of_checkGrid (hforward : g.Forward)
    (hrows : ∀ t ∈ g.rows, 0 ≤ t.size) (hcols : ∀ t ∈ g.cols, 0 ≤ t.size)
    (h : checkGrid g = .ok ()) : g.cells.Pairwise fun a b => a.box.Apart b.box := by
  obtain ⟨hnodup, hall⟩ := cells_of_checkGrid h
  obtain ⟨-, hrow, hcol⟩ := checkGrid_eq_ok_iff.mp h
  have hrow := (checkTracks_eq_ok_iff_ordered.mp hrow).pairwise hrows
  have hcol := (checkTracks_eq_ok_iff_ordered.mp hcol).pairwise hcols
  rw [List.Nodup, List.pairwise_map] at hnodup
  refine hnodup.imp_of_mem ?_
  intro a b ha hb hne
  obtain ⟨row, col, hr, hk, hin⟩ := hall a ha
  obtain ⟨row', col', hr', hk', hin'⟩ := hall b hb
  refine hin.within.apart hin'.within ?_
  -- Cells that differ in their place are in two columns or in two rows.
  by_cases hsame : a.col = b.col
  · have hother : a.row ≠ b.row := fun e => hne (Prod.ext e hsame)
    exact .inr (finish_le_offset hrow (hforward a ha).1 (hforward b hb).1 hother hr hr')
  · exact .inl (finish_le_offset hcol (hforward a ha).2 (hforward b hb).2 hsame hk hk')

/-- In a grid that passes each position has exactly one cell, each cell lies in its row and its
column, and no two cells have a point in common. -/
theorem sound_of_checkGrid (hforward : ∀ c ∈ g.cells, 0 ≤ c.row ∧ 0 ≤ c.col)
    (hsizes : ∀ t ∈ g.rows ++ g.cols, 0 ≤ t.size) (h : checkGrid g = .ok ()) :
    (∀ r < g.rows.length, ∀ k < g.cols.length,
        (g.cells.map fun c => (c.row, c.col)).count ((r : Int), (k : Int)) = 1) ∧
      (∀ c ∈ g.cells, ∃ row col, g.rows[c.row.toNat]? = some row ∧
        g.cols[c.col.toNat]? = some col ∧ c.box.Within row col) ∧
      g.cells.Pairwise fun a b => Disjoint a.box.interior b.box.interior := by
  refine ⟨(fills_of_checkGrid hforward h).once, ?_, ?_⟩
  · intro c hc
    obtain ⟨row, col, hrow, hcol, hin⟩ := (cells_of_checkGrid h).2 c hc
    rw [← Int.toNat_of_nonneg (hforward c hc).1, item?_natCast] at hrow
    rw [← Int.toNat_of_nonneg (hforward c hc).2, item?_natCast] at hcol
    exact ⟨row, col, hrow, hcol, hin.within⟩
  · obtain ⟨hrows, hcols⟩ := List.forall_mem_append.mp hsizes
    exact (pairwise_apart_of_checkGrid hforward hrows hcols h).imp fun hab => hab.disjoint_interior

end

/-- A cell of a size at a place, in tracks of given sizes and offsets. -/
def PlacedCell.bare (row col : Int) (extent : Extent ℚ) (rowHeight colWidth x y : ℚ) :
    PlacedCell ℚ where
  values := []
  styles := []
  row
  col
  rowLabel := ""
  colLabel := ""
  extent
  warnings := []
  rowHeight
  colWidth
  x
  y

/-- Two columns that touch each other; the cells stand in the order of their columns reversed. -/
def Grid.touching : Grid ℚ where
  rows := [⟨0, -1, 3, ""⟩]
  cols := [⟨0, 0, 1 / 2, ""⟩, ⟨1, 1 / 2, 2, ""⟩]
  cells := [.bare 0 1 ⟨2, 3⟩ 3 2 (1 / 2) (-1), .bare 0 0 ⟨1 / 2, 1⟩ 3 (1 / 2) 0 (-1)]

theorem sound_of_checkGrid_touching :
    (∀ c ∈ Grid.touching.cells, 0 ≤ c.row ∧ 0 ≤ c.col) ∧
      (∀ t ∈ Grid.touching.rows ++ Grid.touching.cols, 0 ≤ t.size) ∧
      checkGrid Grid.touching = .ok () ∧
      Grid.touching.cells.Pairwise fun a b => Disjoint a.box.interior b.box.interior := by
  have hforward : ∀ c ∈ Grid.touching.cells, 0 ≤ c.row ∧ 0 ≤ c.col := by decide
  have hsizes : ∀ t ∈ Grid.touching.rows ++ Grid.touching.cols, 0 ≤ t.size := by
    decide +kernel
  have hpasses : checkGrid Grid.touching = .ok () := by
    decide +kernel
  exact ⟨hforward, hsizes, hpasses, (sound_of_checkGrid hforward hsizes hpasses).2.2⟩

end DesignTokens.Matrix
