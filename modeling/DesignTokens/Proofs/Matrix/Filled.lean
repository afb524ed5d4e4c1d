import DesignTokens.Proofs.Matrix.Checked
import DesignTokens.Proofs.Matrix.Complete
import DesignTokens.Proofs.Matrix.Tracks
import Mathlib

/-!
Grids of cells that fill a rectangle, as those of a component do. Every cell fits into its tracks, so
that only tracks can make the check fail: it does just when a gap between two of them is below zero.
-/
namespace DesignTokens.Matrix

open Registry (WellFormed tag)

/-! ### Places of a rectangle -/

/-- The places of a rectangle, row by row. -/
def rectangle (rows cols : Nat) : List (Int × Int) :=
  (rowMajor rows cols).map fun p => ((p.1 : Int), (p.2 : Int))

theorem length_rectangle (rows cols : Nat) : (rectangle rows cols).length = rows * cols := by
  rw [rectangle, List.length_map, length_rowMajor]

theorem mem_rectangle {rows cols : Nat} {p : Int × Int} :
    p ∈ rectangle rows cols ↔ (0 ≤ p.1 ∧ p.1 < rows) ∧ 0 ≤ p.2 ∧ p.2 < cols := by
  rw [rectangle, List.mem_map]
  constructor
  · rintro ⟨⟨r, k⟩, hp, rfl⟩
    simpa using hp
  · rintro ⟨⟨hr, hr'⟩, hk, hk'⟩
    exact ⟨(p.1.toNat, p.2.toNat), mem_rowMajor.mpr ⟨by omega, by omega⟩,
      Prod.ext (Int.toNat_of_nonneg hr) (Int.toNat_of_nonneg hk)⟩

theorem nodup_rectangle (rows cols : Nat) : (rectangle rows cols).Nodup := by
  have hnat : (rowMajor rows cols).Nodup := List.nodup_range.product List.nodup_range
  refine hnat.map ?_
  intro p q e
  simp only [Prod.mk.injEq, Nat.cast_inj] at e
  exact Prod.ext e.1 e.2

/-- Each place of a rectangle occurs once, and no other place does. -/
structure Fills (rows cols : Nat) (places : List (Int × Int)) : Prop where
  within : ∀ p ∈ places, (0 ≤ p.1 ∧ p.1 < rows) ∧ 0 ≤ p.2 ∧ p.2 < cols
  once : ∀ r < rows, ∀ k < cols, places.count ((r : Int), (k : Int)) = 1

theorem fills_of_perm {rows cols : Nat} {places : List (Int × Int)}
    (h : places.Perm (rectangle rows cols)) : Fills rows cols places where
  within p hp := mem_rectangle.mp (h.mem_iff.mp hp)
  once r hr k hk := by
    have hmem : ((r : Int), (k : Int)) ∈ rectangle rows cols :=
      mem_rectangle.mpr ⟨⟨by omega, by omega⟩, by omega, by omega⟩
    rw [h.count_eq, List.count_eq_one_of_mem (nodup_rectangle rows cols) hmem]

theorem Fills.perm {rows cols : Nat} {places : List (Int × Int)} (h : Fills rows cols places) :
    places.Perm (rectangle rows cols) := by
  rw [List.perm_iff_count]
  intro p
  by_cases hp : p ∈ rectangle rows cols
  · obtain ⟨⟨hr, hr'⟩, hk, hk'⟩ := mem_rectangle.mp hp
    have honce := h.once p.1.toNat (by omega) p.2.toNat (by omega)
    rw [Int.toNat_of_nonneg hr, Int.toNat_of_nonneg hk] at honce
    rw [List.count_eq_one_of_mem (nodup_rectangle rows cols) hp]
    exact honce
  · have hout : p ∉ places := fun hmem => hp (mem_rectangle.mpr (h.within p hmem))
    rw [List.count_eq_zero_of_not_mem hp, List.count_eq_zero_of_not_mem hout]

/-- As many places as there are in the rectangle, and none of them twice, leave none of it out. -/
theorem fills_of_nodup {rows cols : Nat} {places : List (Int × Int)} (hn : places.Nodup)
    (hwithin : ∀ p ∈ places, (0 ≤ p.1 ∧ p.1 < rows) ∧ 0 ≤ p.2 ∧ p.2 < cols)
    (hlen : places.length = rows * cols) : Fills rows cols places := by
  have hsub : places ⊆ rectangle rows cols := fun p hp => mem_rectangle.mpr (hwithin p hp)
  refine fills_of_perm ((List.subperm_of_subset hn hsub).perm_of_length_le ?_)
  rw [length_rectangle, hlen]

/-- The cells of a component fill the rectangle of its tracks, whatever their extents are. -/
theorem fills_cells {α : Type} (g : Generator α) {c : Component} {s : Assignment}
    {wished : Option (List String)} (hw : WellFormed c.axes) (h : assign c wished = .ok s) :
    Fills (trackLabels s.rowAxes).length (trackLabels s.colAxes).length
      ((g.cells c s).map Cell.place) := by
  have hs : Splits s c.axes := by
    rw [assign_eq_ok hw.names h]
    exact splits_filter _ _
  rw [trackLabels, trackLabels, List.length_map, List.length_map, length_combinations,
    length_combinations, places_cells g hs hw]
  exact fills_of_perm (.refl _)

/-! ### Cells in their tracks -/

section

variable {k : Constants ℚ} {rowLabels colLabels : List String} {cells : List (Cell ℚ)}

theorem length_trackSizes (n : Nat) (place : Cell ℚ → Int) (size : Cell ℚ → ℚ) :
    (trackSizes n place size cells).length = n := by
  simp [trackSizes]

/-- A cell is not greater than its track. -/
theorem le_trackSizes {n i : Nat} {place : Cell ℚ → Int} {size : Cell ℚ → ℚ} {x : ℚ} {c : Cell ℚ}
    (hx : (trackSizes n place size cells)[i]? = some x) (hc : c ∈ cells)
    (hplace : place? n (place c) = some i) : size c ≤ x := by
  rw [trackSizes, List.getElem?_map] at hx
  obtain ⟨j, hj, rfl⟩ := Option.map_eq_some_iff.mp hx
  obtain ⟨-, rfl⟩ := List.getElem?_eq_some_iff.mp hj
  refine le_greatest (List.mem_map_of_mem (List.mem_filter.mpr ⟨hc, ?_⟩))
  simpa using hplace

theorem length_rowTracks (k : Constants ℚ) (rowLabels : List String) (cells : List (Cell ℚ)) :
    (rowTracks k rowLabels cells).length = rowLabels.length :=
  length_tracks _ _ (length_trackSizes _ _ _)

theorem length_colTracks (k : Constants ℚ) (colLabels : List String) (cells : List (Cell ℚ)) :
    (colTracks k colLabels cells).length = colLabels.length :=
  length_tracks _ _ (length_trackSizes _ _ _)

theorem item?_eq_some_iff {β : Type} {xs : List β} {i : Int} {x : β} :
    item? xs i = some x ↔ ∃ j, place? xs.length i = some j ∧ xs[j]? = some x :=
  Option.bind_eq_some_iff

theorem height_le_rowTracks {c : Cell ℚ} {row : Track ℚ} (hc : c ∈ cells)
    (h : item? (rowTracks k rowLabels cells) c.row = some row) : c.extent.height ≤ row.size := by
  obtain ⟨i, hplace, hrow⟩ := item?_eq_some_iff.mp h
  rw [length_rowTracks] at hplace
  exact le_trackSizes (of_getElem?_tracks hrow).2.1 hc hplace

theorem width_le_colTracks {c : Cell ℚ} {col : Track ℚ} (hc : c ∈ cells)
    (h : item? (colTracks k colLabels cells) c.col = some col) : c.extent.width ≤ col.size := by
  obtain ⟨i, hplace, hcol⟩ := item?_eq_some_iff.mp h
  rw [length_colTracks] at hplace
  exact le_trackSizes (of_getElem?_tracks hcol).2.1 hc hplace

/-- A cell of a grid has its row and its column, and fits into them. -/
theorem liesIn_of_ofCells? {grid : Grid ℚ}
    (h : Grid.ofCells? k rowLabels colLabels cells = some grid) {x : PlacedCell ℚ}
    (hx : x ∈ grid.cells) :
    ∃ row col, item? grid.rows x.row = some row ∧ item? grid.cols x.col = some col ∧
      x.LiesIn row col := by
  simp only [Grid.ofCells?, Option.bind_eq_bind, Option.bind_eq_some_iff] at h
  obtain ⟨placed, hplaced, e⟩ := h
  obtain rfl := Option.some.inj e
  obtain ⟨c, hc, hplace⟩ := exists_left_of_forall₂ (mapM_eq_some hplaced) hx
  simp only [Cell.placeIn?, Option.bind_eq_bind, Option.bind_eq_some_iff] at hplace
  obtain ⟨row, hrow, col, hcol, e⟩ := hplace
  obtain rfl := Option.some.inj e
  exact ⟨row, col, hrow, hcol, rfl, rfl, rfl, rfl, not_lt.mpr (height_le_rowTracks hc hrow),
    not_lt.mpr (width_le_colTracks hc hcol)⟩

variable (k) in
theorem exists_ofCells?
    (h : Fills rowLabels.length colLabels.length (cells.map Cell.place)) :
    ∃ grid, Grid.ofCells? k rowLabels colLabels cells = some grid := by
  have hplaced : (cells.mapM (Cell.placeIn? (rowTracks k rowLabels cells)
      (colTracks k colLabels cells))).isSome := by
    rw [isSome_mapM, List.all_eq_true]
    intro c hc
    obtain ⟨⟨hr, hr'⟩, hk, hk'⟩ := h.within c.place (List.mem_map_of_mem hc)
    obtain ⟨r, hrow⟩ := Int.eq_ofNat_of_zero_le hr
    obtain ⟨j, hcol⟩ := Int.eq_ofNat_of_zero_le hk
    simp only [Cell.place] at hr' hk' hrow hcol
    have hr'' : r < (rowTracks k rowLabels cells).length := by rw [length_rowTracks]; omega
    have hk'' : j < (colTracks k colLabels cells).length := by rw [length_colTracks]; omega
    simp [Cell.placeIn?, hrow, hcol, item?_natCast, hr'', hk'']
  obtain ⟨placed, hplaced⟩ := Option.isSome_iff_exists.mp hplaced
  exact ⟨_, by rw [Grid.ofCells?, hplaced]; rfl⟩

theorem cellsPass_of_ofCells? {grid : Grid ℚ}
    (h : Fills rowLabels.length colLabels.length (cells.map Cell.place))
    (hgrid : Grid.ofCells? k rowLabels colLabels cells = some grid) : CellsPass grid := by
  obtain ⟨hrows, hcols, hcells⟩ := ofCells?_eq_some hgrid
  have hplaces : grid.cells.map (·.place) = cells.map Cell.place := by
    rw [← hcells, List.map_map]
    rfl
  constructor
  · rw [hrows, hcols, length_rowTracks, length_colTracks, ← length_rectangle, ← h.perm.length_eq,
      ← hplaces, List.length_map]
  · refine checkCells_eq_ok_iff.mpr ⟨?_, by simp, fun x hx => ?_⟩
    · rw [hplaces]
      exact h.perm.nodup_iff.mpr (nodup_rectangle _ _)
    · exact checkCell_eq_ok_iff.mpr (liesIn_of_ofCells? hgrid hx)

theorem checkTracks_eq_ok_iff_ordered {d : Direction} {ts : List (Track ℚ)} :
    checkTracks d ts = .ok () ↔ Ordered ts := by
  rw [checkTracks_eq_ok_iff, Ordered]
  simp only [not_lt]

/-- What the check of a grid comes to where its cells fill a rectangle. -/
theorem checkGrid_ofCells?_eq_ok_iff {grid : Grid ℚ}
    (h : Fills rowLabels.length colLabels.length (cells.map Cell.place))
    (hgrid : Grid.ofCells? k rowLabels colLabels cells = some grid) :
    checkGrid grid = .ok () ↔
      ¬(k.gapY < 0 ∧ 2 ≤ rowLabels.length) ∧ ¬(k.gapX < 0 ∧ 2 ≤ colLabels.length) := by
  obtain ⟨hrows, hcols, -⟩ := ofCells?_eq_some hgrid
  rw [checkGrid_eq_ok_iff, checkTracks_eq_ok_iff_ordered, checkTracks_eq_ok_iff_ordered, hrows, hcols,
    rowTracks, colTracks, ordered_tracks_iff (length_trackSizes _ _ _),
    ordered_tracks_iff (length_trackSizes _ _ _)]
  exact and_iff_right (cellsPass_of_ofCells? h hgrid)

/-- Whatever the check of such a grid finds is a violation of its tracks. -/
theorem exists_violation_of_checkGrid {grid : Grid ℚ}
    (h : Fills rowLabels.length colLabels.length (cells.map Cell.place))
    (hgrid : Grid.ofCells? k rowLabels colLabels cells = some grid) :
    checkGrid grid = .ok () ∨ ∃ v, checkGrid grid = .error (.violation v) := by
  rw [checkGrid_of_cellsPass (cellsPass_of_ofCells? h hgrid)]
  rcases exists_violation_of_checkTracks .row grid.rows with hok | ⟨v, hv⟩
  · rw [hok]
    exact exists_violation_of_checkTracks .column grid.cols
  · exact .inr ⟨v, by rw [hv]; rfl⟩

end

/-- With gaps that are not below zero nothing but its wish for rows keeps a component from a matrix. -/
theorem exists_expand {g : Generator ℚ} {c : Component} {s : Assignment}
    (hlost : ∀ x, g.isLost x = false) (hx : 0 ≤ g.constants.gapX) (hy : 0 ≤ g.constants.gapY)
    (hw : WellFormed c.axes) (hassign : assign c (Table.get? c.name g.rowAxes) = .ok s) :
    ∃ m, g.expand c = .ok m := by
  have hkeep : ∀ lengths, g.keep lengths = .ok () := by
    intro lengths
    simp [Generator.keep, hlost]
  have hfills := fills_cells g hw hassign
  obtain ⟨grid, hgrid⟩ := exists_ofCells? g.constants hfills
  have hpasses : checkGrid grid = .ok () :=
    (checkGrid_ofCells?_eq_ok_iff hfills hgrid).mpr ⟨fun h => absurd h.1 (not_lt.mpr hy),
      fun h => absurd h.1 (not_lt.mpr hx)⟩
  have hsections : checkSections g.constants (ModeSection.ofModes g.constants g.modes grid) = .ok () :=
    checkSections_series g.constants _ _ _
  have hlayOut : g.layOut c.name s (g.cells c s) =
      .ok ⟨c.name, s, grid, ModeSection.ofModes g.constants g.modes grid⟩ := by
    simp only [Generator.layOut, hkeep, hgrid, hpasses, hsections]
    rfl
  exact ⟨_, by rw [Generator.expand, hassign]; exact hlayOut⟩

/-! ### Checks of a layout -/

/-- The default constants in exact lengths, but for the gaps. -/
def Constants.exact (gapX gapY : ℚ) : Constants ℚ where
  sectionPadding := 24
  sectionGap := 48
  startX := 100
  startY := 100
  modeGap := 50
  titleHeight := 32
  gapX
  gapY
  headerRowHeight := 24
  labelColumnWidth := 120
  labelFontSize := 11
  charWidthRatio := 3 / 5

/-- Cells in exact lengths, of which each is as wide as the keys of its values are long. -/
def Generator.exact (k : Constants ℚ) : Generator ℚ where
  constants := k
  modes := ["light", "dark"]
  rowAxes := []
  styles _ v := (v.map fun p => (p.2.key, {}), [])
  extent styles _ := ⟨(styles.map fun p => (p.1.length : ℚ)).sum, 1⟩
  isLost _ := false

/-- Cells that fill a rectangle can always be laid out, whatever their extents are. The check refuses
the grid just when a gap below zero separates two rows or two columns, and never refuses the sections
of a grid. -/
theorem checkGrid_fails_iff (k : Constants ℚ) :
    (∀ (rowLabels colLabels : List String) (cells : List (Cell ℚ)),
      Fills rowLabels.length colLabels.length (cells.map Cell.place) →
        ∃ grid, Grid.ofCells? k rowLabels colLabels cells = some grid ∧
          (0 ≤ k.gapX → 0 ≤ k.gapY → checkGrid grid = .ok ()) ∧
          ((∃ v, checkGrid grid = .error (.violation v)) ↔
            k.gapY < 0 ∧ 2 ≤ rowLabels.length ∨ k.gapX < 0 ∧ 2 ≤ colLabels.length) ∧
          (checkGrid grid = .ok () ∨ ∃ v, checkGrid grid = .error (.violation v))) ∧
      ∀ (grid : Grid ℚ) (modes : List String),
        checkSections k (ModeSection.ofModes k modes grid) = .ok () := by
  refine ⟨?_, fun grid modes => checkSections_series k _ k.startX modes⟩
  intro rowLabels colLabels cells h
  obtain ⟨grid, hgrid⟩ := exists_ofCells? k h
  have hok := checkGrid_ofCells?_eq_ok_iff h hgrid
  have hcases := exists_violation_of_checkGrid h hgrid
  refine ⟨grid, hgrid, ?_, ?_, hcases⟩
  · intro hx hy
    exact hok.mpr ⟨fun hneg => absurd hneg.1 (not_lt.mpr hy),
      fun hneg => absurd hneg.1 (not_lt.mpr hx)⟩
  · have hviolation : (∃ v, checkGrid grid = .error (.violation v)) ↔ ¬checkGrid grid = .ok () := by
      constructor
      · rintro ⟨v, hv⟩ hgood
        rw [hv] at hgood
        cases hgood
      · exact fun hbad => hcases.resolve_left hbad
    rw [hviolation, hok, not_and_or, not_not, not_not]

/-- Two rows that are to overlap by one. -/
theorem checkGrid_fails_iff_tag :
    ∃ s, assign tag none = .ok s ∧
      Fills (trackLabels s.rowAxes).length (trackLabels s.colAxes).length
        (((Generator.exact (.exact 24 (-1))).cells tag s).map Cell.place) ∧
      ∃ grid, Grid.ofCells? (.exact 24 (-1)) (trackLabels s.rowAxes) (trackLabels s.colAxes)
          ((Generator.exact (.exact 24 (-1))).cells tag s) = some grid ∧
        ∃ v, checkGrid grid = .error (.violation v) := by
  have hassign : assign tag none = .ok ⟨tag.axes.take 1, tag.axes.drop 1⟩ := rfl
  have hfills := fills_cells (Generator.exact (.exact 24 (-1))) Registry.accepted_tag.wellFormed
    hassign
  obtain ⟨grid, hgrid, -, hviolation, -⟩ :=
    (checkGrid_fails_iff (.exact 24 (-1))).1 _ _ _ hfills
  have hgap : (Constants.exact 24 (-1)).gapY < 0 := by norm_num [Constants.exact]
  have htwo : 2 ≤ (trackLabels (tag.axes.take 1)).length := by
    simp [trackLabels, tag]
  exact ⟨_, hassign, hfills, grid, hgrid, hviolation.mpr (.inl ⟨hgap, htwo⟩)⟩

end DesignTokens.Matrix
