import DesignTokens.Proofs.Matrix.Cells
import Mathlib

/-!
Complete matrices. An expanded component has one cell for each combination of its axis values; the
cells fill the rectangle of its rows and columns, and carry the labels of their tracks.
-/
namespace DesignTokens.Matrix

open Registry (WellFormed tag)

variable {α : Type}

/-- A matrix with one cell for every combination of axis values, in its row and its column. -/
structure Complete (c : Component) (isRow : VariantAxis → Bool) (m : Matrix α) : Prop where
  rowAxes : m.assignment.rowAxes = c.axes.filter isRow
  colAxes : m.assignment.colAxes = c.axes.filter fun a => !isRow a
  /-- The combinations of axis values are what cells stand for. -/
  mem_values : ∀ v, v ∈ m.grid.cells.map (·.values) ↔ IsCombination c.axes v
  nodup_values : (m.grid.cells.map (·.values)).Nodup
  /-- Each pair of a row and a column is the place of just one cell. -/
  places : Set.BijOn (fun x : PlacedCell α => (x.row, x.col)) {x | x ∈ m.grid.cells}
    (Set.Ico 0 (size m.assignment.rowAxes : Int) ×ˢ Set.Ico 0 (size m.assignment.colAxes : Int))
  rows : m.grid.rows.length = size m.assignment.rowAxes
  cols : m.grid.cols.length = size m.assignment.colAxes
  cellAt : ∀ r < size m.assignment.rowAxes, ∀ k < size m.assignment.colAxes,
    ∃ x ∈ m.grid.cells, m.cellAt? r k = some x ∧ x.row = r ∧ x.col = k
  rowLabel : ∀ x ∈ m.grid.cells, (item? m.grid.rows x.row).map (·.label) = some x.rowLabel
  colLabel : ∀ x ∈ m.grid.cells, (item? m.grid.cols x.col).map (·.label) = some x.colLabel

namespace Expands

variable [Add α] [Zero α] [Max α] [LT α] [DecidableLT α] [BEq α] [DecidableEq α]
  {g : Generator α} {c : Component} {m : Matrix α}

/-! ### Tracks -/

theorem rowLabels (h : Expands g c m) :
    m.grid.rows.map (·.label) = trackLabels m.assignment.rowAxes := by
  rw [(ofCells?_eq_some h.grid).1, map_label_rowTracks]

theorem colLabels (h : Expands g c m) :
    m.grid.cols.map (·.label) = trackLabels m.assignment.colAxes := by
  rw [(ofCells?_eq_some h.grid).2.1, map_label_colTracks]

theorem length_rows (h : Expands g c m) : m.grid.rows.length = size m.assignment.rowAxes := by
  rw [← length_combinations, ← List.length_map (f := (·.label)), h.rowLabels, trackLabels,
    List.length_map]

theorem length_cols (h : Expands g c m) : m.grid.cols.length = size m.assignment.colAxes := by
  rw [← length_combinations, ← List.length_map (f := (·.label)), h.colLabels, trackLabels,
    List.length_map]

/-! ### Cells -/

theorem toCell_eq (h : Expands g c m) : m.grid.cells.map (·.toCell) = g.cells c m.assignment :=
  (ofCells?_eq_some h.grid).2.2

/-- A cell of the matrix is the cell of a combination. -/
theorem exists_combination (h : Expands g c m) {x : PlacedCell α} (hx : x ∈ m.grid.cells) :
    ∃ v, IsCombination c.axes v ∧ x.toCell = g.cell c m.assignment v := by
  have hmem : x.toCell ∈ g.cells c m.assignment := h.toCell_eq ▸ List.mem_map_of_mem hx
  obtain ⟨v, hv, e⟩ := (mem_cells g).mp hmem
  exact ⟨v, hv, e.symm⟩

/-- The values of the cells are the combinations, in some order. -/
theorem values_perm (h : Expands g c m) :
    (m.grid.cells.map (·.values)).Perm (combinations c.axes) := by
  have hperm := (cells_perm g c m.assignment).map (·.values)
  have hleft : (g.cells c m.assignment).map (·.values) = m.grid.cells.map (·.values) := by
    rw [← h.toCell_eq, List.map_map]
    rfl
  have hright : ((combinations c.axes).map (g.cell c m.assignment)).map (·.values) =
      combinations c.axes := by
    rw [List.map_map]
    exact List.map_id _
  rwa [hleft, hright] at hperm

/-! ### Places -/

variable (h : Expands g c m) (hw : WellFormed c.axes)
include h hw

theorem splits : Splits m.assignment c.axes := by
  rw [assign_eq_ok hw.names h.assignment]
  exact splits_filter _ _

/-- The places of the cells, row by row. -/
theorem places_eq :
    m.grid.cells.map (fun x => (x.row, x.col)) =
      (rowMajor (size m.assignment.rowAxes) (size m.assignment.colAxes)).map
        fun p => ((p.1 : Int), (p.2 : Int)) := by
  rw [← places_cells g (h.splits hw) hw, ← h.toCell_eq, List.map_map]
  rfl

theorem nodup_places : (m.grid.cells.map fun x => (x.row, x.col)).Nodup := by
  have hrect := (places_perm (h.splits hw) hw).nodup_iff.mp (Matrix.nodup_places (h.splits hw) hw)
  rw [h.places_eq hw]
  refine hrect.map ?_
  intro p q e
  simp only [Prod.mk.injEq, Nat.cast_inj] at e
  exact Prod.ext e.1 e.2

theorem mem_places {p : Int × Int} :
    p ∈ m.grid.cells.map (fun x => (x.row, x.col)) ↔
      p ∈ Set.Ico 0 (size m.assignment.rowAxes : Int) ×ˢ
        Set.Ico 0 (size m.assignment.colAxes : Int) := by
  rw [h.places_eq hw, List.mem_map]
  constructor
  · rintro ⟨⟨r, k⟩, hp, rfl⟩
    simpa using hp
  · intro hp
    obtain ⟨⟨hr, hr'⟩, hk, hk'⟩ := hp
    exact ⟨(p.1.toNat, p.2.toNat), mem_rowMajor.mpr ⟨by omega, by omega⟩,
      Prod.ext (Int.toNat_of_nonneg hr) (Int.toNat_of_nonneg hk)⟩

theorem bijOn_places :
    Set.BijOn (fun x : PlacedCell α => (x.row, x.col)) {x | x ∈ m.grid.cells}
      (Set.Ico 0 (size m.assignment.rowAxes : Int) ×ˢ
        Set.Ico 0 (size m.assignment.colAxes : Int)) := by
  refine ⟨?_, ?_, ?_⟩
  · intro x hx
    exact (h.mem_places hw).mp (List.mem_map_of_mem hx)
  · intro x hx y hy e
    exact List.inj_on_of_nodup_map (h.nodup_places hw) hx hy e
  · intro p hp
    exact List.mem_map.mp ((h.mem_places hw).mpr hp)

/-- The cell at a position stands in its row and its column. -/
theorem cellAt?_eq_some {r k : Nat} (hr : r < size m.assignment.rowAxes)
    (hk : k < size m.assignment.colAxes) :
    ∃ x ∈ m.grid.cells, m.cellAt? r k = some x ∧ x.row = r ∧ x.col = k := by
  have hplace : (m.grid.cells.map fun x => (x.row, x.col))[r * m.grid.cols.length + k]? =
      some ((r : Int), (k : Int)) := by
    rw [h.places_eq hw, h.length_cols, List.getElem?_map, getElem?_rowMajor hr hk, Option.map_some]
  rw [List.getElem?_map] at hplace
  obtain ⟨x, hx, e⟩ := Option.map_eq_some_iff.mp hplace
  obtain ⟨hrow, hcol⟩ := Prod.mk.inj e
  exact ⟨x, List.mem_of_getElem? hx, hx, hrow, hcol⟩

theorem label_row {x : PlacedCell α} (hx : x ∈ m.grid.cells) :
    (item? m.grid.rows x.row).map (·.label) = some x.rowLabel := by
  obtain ⟨v, hv, e⟩ := h.exists_combination hx
  have hrow : x.row = trackIndex m.assignment.rowAxes v := congrArg Cell.row e
  have hlab : x.rowLabel = label (restrict m.assignment.rowAxes v) := congrArg Cell.rowLabel e
  rw [hrow, hlab]
  exact label_track hw (h.splits hw).row_subset h.rowLabels hv

theorem label_col {x : PlacedCell α} (hx : x ∈ m.grid.cells) :
    (item? m.grid.cols x.col).map (·.label) = some x.colLabel := by
  obtain ⟨v, hv, e⟩ := h.exists_combination hx
  have hcol : x.col = trackIndex m.assignment.colAxes v := congrArg Cell.col e
  have hlab : x.colLabel = label (restrict m.assignment.colAxes v) := congrArg Cell.colLabel e
  rw [hcol, hlab]
  exact label_track hw (h.splits hw).col_subset h.colLabels hv

/-- A matrix that is returned is complete. -/
theorem complete : Complete c (indexesRows c (Table.get? c.name g.rowAxes)) m where
  rowAxes := by rw [assign_eq_ok hw.names h.assignment]
  colAxes := by rw [assign_eq_ok hw.names h.assignment]
  mem_values v := by rw [h.values_perm.mem_iff, mem_combinations]
  nodup_values := by
    have hnodup := nodup_combinations fun a ha => List.Nodup.of_map _ (hw.keys a ha)
    exact h.values_perm.nodup_iff.mpr hnodup
  places := h.bijOn_places hw
  rows := h.length_rows
  cols := h.length_cols
  cellAt _ hr _ hk := h.cellAt?_eq_some hw hr hk
  rowLabel _ hx := h.label_row hw hx
  colLabel _ hx := h.label_col hw hx

end Expands

/-! ### Accepted components -/

/-- Cells without styles, all of one size, in exact lengths. -/
def Generator.plain (rowAxes : Table (List String)) : Generator Nat where
  constants := ⟨0, 0, 0, 0, 0, 0, 0, 0, 0, 0, 0, 0⟩
  modes := ["light"]
  rowAxes
  styles _ _ := ([], [])
  extent _ _ := ⟨1, 1⟩
  isLost _ := false

/-- Whichever axes are wished for as rows, the matrix of an accepted component is complete: it has
one cell for each combination, in the row and the column that its labels say. -/
theorem expand_complete [Add α] [Zero α] [Max α] [LT α] [DecidableLT α] [BEq α] [DecidableEq α]
    {g : Generator α} {c : Component} {m : Matrix α} (hc : Registry.Accepted c)
    (h : g.expand c = .ok m) :
    Complete c (indexesRows c (Table.get? c.name g.rowAxes)) m :=
  (expands_of_expand h).complete hc.wellFormed

/-- The second axis is wished for twice, and indexes the rows alone. -/
theorem expand_complete_tag :
    Registry.Accepted tag ∧ ∃ m, (Generator.plain [("Tag", ["on", "on"])]).expand tag = .ok m ∧
      Complete tag (indexesRows tag (some ["on", "on"])) m := by
  have hc := Registry.accepted_tag
  have hok : ((Generator.plain [("Tag", ["on", "on"])]).expand tag).isOk = true := by cbv
  cases hm : (Generator.plain [("Tag", ["on", "on"])]).expand tag with
  | error f => rw [hm] at hok; cases hok
  | ok m => exact ⟨hc, m, rfl, expand_complete hc hm⟩

end DesignTokens.Matrix
