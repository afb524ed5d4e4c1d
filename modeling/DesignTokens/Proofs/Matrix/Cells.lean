import DesignTokens.Matrix.Expand
import DesignTokens.Proofs.Matrix.Assignments
import DesignTokens.Proofs.Results

/-!
The cells of an expanded component. Sorting puts the cells into row-major order, laying them out
keeps them in this order, and a matrix that is returned has passed all checks.
-/
namespace DesignTokens.Matrix

open Registry (WellFormed)

variable {α : Type}

/-! ### Order -/

namespace Cell

theorem le_iff {x y : Cell α} :
    Cell.le x y = true ↔ x.row < y.row ∨ x.row = y.row ∧ x.col ≤ y.col := by
  rw [Cell.le]
  split
  · simp_all
  · split
    · simp_all; omega
    · simp; omega

theorem le_trans (x y z : Cell α) (hxy : Cell.le x y) (hyz : Cell.le y z) : Cell.le x z := by
  rw [le_iff] at *
  omega

theorem le_total (x y : Cell α) : Cell.le x y || Cell.le y x := by
  rw [Bool.or_eq_true, le_iff, le_iff]
  omega

/-- The row and the column of a cell. -/
def place (x : Cell α) : Int × Int := (x.row, x.col)

end Cell

/-- Pairs by their first part, then by their second. -/
def Precedes (p q : Int × Int) : Prop := p.1 < q.1 ∨ p.1 = q.1 ∧ p.2 ≤ q.2

theorem pairwise_rowMajor (rows cols : Nat) :
    ((rowMajor rows cols).map fun p => ((p.1 : Int), (p.2 : Int))).Pairwise Precedes := by
  rw [List.pairwise_map, rowMajor, List.pairwise_flatMap]
  constructor
  · intro r _
    rw [List.pairwise_map]
    refine List.pairwise_lt_range.imp ?_
    intro j k hjk
    exact .inr ⟨rfl, by simp; omega⟩
  · refine List.pairwise_lt_range.imp ?_
    intro r r' hr p hp q hq
    obtain ⟨_, _, rfl⟩ := List.mem_map.mp hp
    obtain ⟨_, _, rfl⟩ := List.mem_map.mp hq
    exact .inl (by simpa using hr)

section

variable {c : Component} {s : Assignment} (g : Generator α)

theorem cells_perm (c : Component) (s : Assignment) :
    (g.cells c s).Perm ((combinations c.axes).map (g.cell c s)) :=
  List.mergeSort_perm _ _

theorem mem_cells {x : Cell α} :
    x ∈ g.cells c s ↔ ∃ v, IsCombination c.axes v ∧ g.cell c s v = x := by
  rw [(cells_perm g c s).mem_iff, List.mem_map]
  simp only [mem_combinations]

/-- The cells stand row by row. -/
theorem places_cells (hs : Splits s c.axes) (hw : WellFormed c.axes) :
    (g.cells c s).map Cell.place =
      (rowMajor (size s.rowAxes) (size s.colAxes)).map fun p => ((p.1 : Int), (p.2 : Int)) := by
  have hperm : ((g.cells c s).map Cell.place).Perm
      ((rowMajor (size s.rowAxes) (size s.colAxes)).map fun p => ((p.1 : Int), (p.2 : Int))) := by
    have hplaces := (places_perm hs hw).map fun p => ((p.1 : Int), (p.2 : Int))
    have hcells := (cells_perm g c s).map Cell.place
    rw [List.map_map] at hplaces hcells
    exact hcells.trans hplaces
  have hsorted : ((g.cells c s).map Cell.place).Pairwise Precedes := by
    rw [List.pairwise_map]
    refine (List.pairwise_mergeSort Cell.le_trans Cell.le_total _).imp ?_
    intro x y hxy
    exact Cell.le_iff.mp hxy
  refine List.Perm.eq_of_pairwise ?_ hsorted (pairwise_rowMajor _ _) hperm
  intro p q _ _ hpq hqp
  simp only [Precedes] at hpq hqp
  exact Prod.ext (by omega) (by omega)

end

/-! ### Tracks and places -/

theorem item?_natCast {β : Type} (xs : List β) (n : Nat) : item? xs (n : Int) = xs[n]? := by
  by_cases hn : n < xs.length
  · simp [item?, place?, hn]
  · simp [item?, place?, hn]

/-- Tracks that some of the axes make have the labels of the combinations on them. -/
theorem label_track {axes part : List VariantAxis} (hw : WellFormed axes) (hp : part ⊆ axes)
    {ts : List (Track α)} (ht : ts.map (·.label) = trackLabels part) {v : Combination}
    (hv : IsCombination axes v) :
    (item? ts (trackIndex part v)).map (·.label) = some (label (restrict part v)) := by
  have hcov := (hv.covers hw.names).of_subset hp
  have hlabel := getElem?_trackLabels (fun a ha => hw.keys a (hp ha)) hcov
  rwa [← ht, List.getElem?_map, ← item?_natCast] at hlabel

theorem length_offsets [Add α] (start gap : α) (sizes : List α) :
    (offsets start gap sizes).length = sizes.length + 1 := by
  induction sizes generalizing start with
  | nil => rfl
  | cons size sizes ih => simp [offsets, ih]

theorem map_label_tracks [Add α] {sizes : List α} {labels : List String} (start gap : α)
    (h : sizes.length = labels.length) :
    (tracks sizes labels start gap).map (·.label) = labels := by
  have hlen : (sizes.zip labels).length ≤ (offsets start gap sizes).length := by
    rw [length_offsets, List.length_zip]
    omega
  have hzip : ((((sizes.zip labels).zip (offsets start gap sizes)).zipIdx.map (·.1)).map
      (·.1)) = sizes.zip labels := by
    rw [List.zipIdx_map_fst, List.map_fst_zip hlen]
  calc (tracks sizes labels start gap).map (·.label)
    _ = ((((sizes.zip labels).zip (offsets start gap sizes)).zipIdx.map (·.1)).map
        (·.1)).map (·.2) := by simp only [tracks, List.map_map, Function.comp_def]
    _ = labels := by rw [hzip, List.map_snd_zip h.ge]

theorem toCell_of_placeIn? {rows cols : List (Track α)} {x : Cell α} {y : PlacedCell α}
    (h : x.placeIn? rows cols = some y) : y.toCell = x := by
  simp only [Cell.placeIn?, Option.bind_eq_bind, Option.bind_eq_some_iff] at h
  obtain ⟨row, _, col, _, e⟩ := h
  exact (Option.some.inj e) ▸ rfl

theorem map_toCell_of_mapM {rows cols : List (Track α)} {cells : List (Cell α)}
    {placed : List (PlacedCell α)} (h : cells.mapM (Cell.placeIn? rows cols) = some placed) :
    placed.map (·.toCell) = cells := by
  induction cells generalizing placed with
  | nil => simp_all
  | cons x cells ih =>
    simp only [List.mapM_cons, Option.bind_eq_bind, Option.bind_eq_some_iff] at h
    obtain ⟨y, hy, ys, hys, e⟩ := h
    obtain rfl := Option.some.inj e
    rw [List.map_cons, toCell_of_placeIn? hy, ih hys]

section

variable [Add α] [Zero α] [Max α]

theorem map_label_rowTracks (k : Constants α) (labels : List String) (cells : List (Cell α)) :
    (rowTracks k labels cells).map (·.label) = labels :=
  map_label_tracks _ _ (by simp [trackSizes])

theorem map_label_colTracks (k : Constants α) (labels : List String) (cells : List (Cell α)) :
    (colTracks k labels cells).map (·.label) = labels :=
  map_label_tracks _ _ (by simp [trackSizes])

/-- A grid has the tracks that its labels make and the cells that it is made of. -/
theorem ofCells?_eq_some {k : Constants α} {rowLabels colLabels : List String}
    {cells : List (Cell α)} {grid : Grid α}
    (h : Grid.ofCells? k rowLabels colLabels cells = some grid) :
    grid.rows = rowTracks k rowLabels cells ∧ grid.cols = colTracks k colLabels cells ∧
      grid.cells.map (·.toCell) = cells := by
  simp only [Grid.ofCells?, Option.bind_eq_bind, Option.bind_eq_some_iff] at h
  obtain ⟨placed, hplaced, e⟩ := h
  obtain rfl := Option.some.inj e
  exact ⟨rfl, rfl, map_toCell_of_mapM hplaced⟩

end

/-! ### Expansion -/

theorem modes_series [Add α] {k : Constants α} (size : Extent α) (x : α) (modes : List String) :
    (ModeSection.series k size x modes).map (·.mode) = modes := by
  induction modes generalizing x with
  | nil => rfl
  | cons mode modes ih => rw [ModeSection.series, List.map_cons, ih]

section

variable [Add α] [Zero α] [Max α] [LT α] [DecidableLT α] [BEq α] [DecidableEq α]

/-- What has happened when a matrix is returned. -/
structure Expands (g : Generator α) (c : Component) (m : Matrix α) : Prop where
  component : m.component = c.name
  assignment : assign c (Table.get? c.name g.rowAxes) = .ok m.assignment
  grid : Grid.ofCells? g.constants (trackLabels m.assignment.rowAxes)
    (trackLabels m.assignment.colAxes) (g.cells c m.assignment) = some m.grid
  passed : checkGrid m.grid = .ok ()
  sections : m.sections = ModeSection.ofModes g.constants g.modes m.grid
  passedSections : checkSections g.constants m.sections = .ok ()

theorem expands_of_expand {g : Generator α} {c : Component} {m : Matrix α}
    (h : g.expand c = .ok m) : Expands g c m := by
  obtain ⟨s, hassign, h⟩ := bind_eq_ok h
  obtain ⟨_, -, h⟩ := bind_eq_ok h
  cases hgrid : Grid.ofCells? g.constants (trackLabels s.rowAxes) (trackLabels s.colAxes)
      (g.cells c s) with
  | none => rw [hgrid] at h; cases h
  | some grid =>
    rw [hgrid] at h
    obtain ⟨_, -, h⟩ := bind_eq_ok h
    cases hcheck : checkGrid grid with
    | error f => cases f <;> (rw [hcheck] at h; cases h)
    | ok _ =>
      rw [hcheck] at h
      obtain ⟨_, -, h⟩ := bind_eq_ok h
      obtain ⟨_, -, h⟩ := bind_eq_ok h
      cases hsections : checkSections g.constants
          (ModeSection.ofModes g.constants g.modes grid) with
      | error v => rw [hsections] at h; cases h
      | ok _ =>
        rw [hsections] at h
        obtain rfl := Except.ok.inj h
        exact ⟨rfl, mapError_eq_ok hassign, hgrid, hcheck, rfl, hsections⟩

/-- A matrix has one section for each mode. -/
theorem Expands.modes {g : Generator α} {c : Component} {m : Matrix α} (h : Expands g c m) :
    m.sections.map (·.mode) = g.modes := by
  rw [h.sections, ModeSection.ofModes, modes_series]

end

end DesignTokens.Matrix
