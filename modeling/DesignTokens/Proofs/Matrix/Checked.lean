import DesignTokens.Matrix.Check
import DesignTokens.Proofs.Matrix.Cells

/-!
What the checks of a layout accept. A cell passes when it has the sizes and the offsets of its row and
its column and does not exceed them; cells pass when no two share a place; tracks pass when none starts
before the one in front of it ends; and sections pass when they are copies at the right distance.
-/
namespace DesignTokens.Matrix

variable {α : Type} [LT α]

/-- The cell has the sizes and the offsets of a row and a column, and does not exceed them. -/
structure PlacedCell.LiesIn (c : PlacedCell α) (row col : Track α) : Prop where
  rowHeight : c.rowHeight = row.size
  y : c.y = row.offset
  colWidth : c.colWidth = col.size
  x : c.x = col.offset
  height : ¬row.size < c.extent.height
  width : ¬col.size < c.extent.width

section

variable [DecidableLT α] [BEq α] {rows cols : List (Track α)}

theorem checkCell_eq_ok_iff [LawfulBEq α] {c : PlacedCell α} :
    checkCell rows cols c = .ok () ↔
      ∃ row col, item? rows c.row = some row ∧ item? cols c.col = some col ∧ c.LiesIn row col := by
  rw [checkCell]
  cases item? rows c.row with
  | none => simp
  | some row =>
    cases item? cols c.col with
    | none => simp
    | some col =>
      constructor
      · intro h
        dsimp only at h
        split at h
        · cases h
        · rename_i hrow
          split at h
          · cases h
          · rename_i hcol
            split at h
            · cases h
            · rename_i hfits
              simp only [Bool.or_eq_true, bne_iff_ne, decide_eq_true_eq, not_or,
                not_not] at hrow hcol hfits
              exact ⟨row, col, rfl, rfl, hrow.1, hrow.2, hcol.1, hcol.2, hfits.1, hfits.2⟩
      · rintro ⟨_, _, hrow, hcol, h⟩
        cases hrow
        cases hcol
        simp [h.rowHeight, h.y, h.colWidth, h.x, h.height, h.width]

/-- Cells pass one after the other, each at a place that none before it has. -/
theorem checkCells_eq_ok_iff {seen : List (Int × Int)} {cells : List (PlacedCell α)} :
    checkCells rows cols seen cells = .ok () ↔
      (cells.map (·.place)).Nodup ∧ (∀ c ∈ cells, c.place ∉ seen) ∧
        ∀ c ∈ cells, checkCell rows cols c = .ok () := by
  induction cells generalizing seen with
  | nil => simp [checkCells]
  | cons c cells ih =>
    rw [checkCells]
    split
    · rename_i hseen
      have hmem : c.place ∈ seen := List.contains_iff_mem.mp hseen
      simp [hmem]
    · rename_i hseen
      have hnew : c.place ∉ seen := mt List.contains_iff_mem.mpr hseen
      constructor
      · intro h
        obtain ⟨_, hc, h⟩ := bind_eq_ok h
        obtain ⟨hnodup, hrest, hall⟩ := ih.mp h
        refine ⟨List.nodup_cons.mpr ⟨?_, hnodup⟩, ?_, List.forall_mem_cons.mpr ⟨hc, hall⟩⟩
        · intro hmem
          obtain ⟨d, hd, e⟩ := List.mem_map.mp hmem
          exact hrest d hd (e ▸ List.mem_cons_self)
        · refine List.forall_mem_cons.mpr ⟨hnew, fun d hd hmem => ?_⟩
          exact hrest d hd (List.mem_cons_of_mem _ hmem)
      · rintro ⟨hnodup, hseen', hall⟩
        obtain ⟨hc, hnodup⟩ := List.nodup_cons.mp hnodup
        obtain ⟨-, hseen'⟩ := List.forall_mem_cons.mp hseen'
        obtain ⟨hok, hall⟩ := List.forall_mem_cons.mp hall
        rw [hok]
        refine ih.mpr ⟨hnodup, fun d hd hmem => ?_, hall⟩
        rcases List.mem_cons.mp hmem with e | hmem
        · exact hc (List.mem_map.mpr ⟨d, hd, e⟩)
        · exact hseen' d hd hmem

end

/-! ### Tracks -/

variable [Add α] [DecidableLT α]

theorem checkTracks_eq_ok_iff {d : Direction} {ts : List (Track α)} :
    checkTracks d ts = .ok () ↔ ts.IsChain fun a b => ¬b.offset < a.finish := by
  induction ts with
  | nil => simp [checkTracks]
  | cons a ts ih =>
    cases ts with
    | nil => simp [checkTracks]
    | cons b ts =>
      rw [checkTracks, List.isChain_cons_cons, ← ih]
      split <;> simp_all

/-- Tracks that do not pass overlap. -/
theorem exists_violation_of_checkTracks (d : Direction) (ts : List (Track α)) :
    checkTracks d ts = .ok () ∨ ∃ v, checkTracks d ts = .error (.violation v) := by
  induction ts with
  | nil => exact .inl rfl
  | cons a ts ih =>
    cases ts with
    | nil => exact .inl rfl
    | cons b ts =>
      rw [checkTracks]
      split
      · exact .inr ⟨_, rfl⟩
      · exact ih

/-! ### Grids -/

variable [BEq α]

/-- The number of cells and the cells one by one, without the tracks among each other. -/
def CellsPass (g : Grid α) : Prop :=
  g.cells.length = g.rows.length * g.cols.length ∧
    checkCells g.rows g.cols [] g.cells = .ok ()

theorem checkGrid_of_cellsPass {g : Grid α} (h : CellsPass g) :
    checkGrid g = (do checkTracks .row g.rows; checkTracks .column g.cols) := by
  simp only [checkGrid, h.1, h.2, bne_self_eq_false, Bool.false_eq_true, ↓reduceIte]
  rfl

theorem checkGrid_eq_ok_iff {g : Grid α} :
    checkGrid g = .ok () ↔ CellsPass g ∧ checkTracks .row g.rows = .ok () ∧
      checkTracks .column g.cols = .ok () := by
  constructor
  · intro h
    rw [checkGrid] at h
    split at h
    · cases h
    · rename_i hcount
      obtain ⟨_, hcells, h⟩ := bind_eq_ok h
      obtain ⟨_, hrows, hcols⟩ := bind_eq_ok h
      exact ⟨⟨by simpa using hcount, hcells⟩, hrows, hcols⟩
  · rintro ⟨hcells, hrows, hcols⟩
    rw [checkGrid_of_cellsPass hcells, hrows]
    exact hcols

/-! ### Sections -/

/-- All sections of a series have the same size and place their content alike. -/
theorem mem_series {β : Type} [Add β] {k : Constants β} {size : Extent β} {x : β}
    {modes : List String} {m : ModeSection β} (h : m ∈ ModeSection.series k size x modes) :
    m.width = size.width ∧ m.height = size.height ∧ m.contentX = k.sectionPadding ∧
      m.contentY = k.sectionPadding + k.titleHeight := by
  induction modes generalizing x with
  | nil => cases h
  | cons mode modes ih =>
    rcases List.mem_cons.mp h with rfl | h
    · exact ⟨rfl, rfl, rfl, rfl⟩
    · exact ih h

section

variable {β : Type} [BEq β] [LawfulBEq β] [DecidableEq β]

theorem ModeSection.isCopy_of_eq {s first : ModeSection β} (hwidth : s.width = first.width)
    (hheight : s.height = first.height) (hx : s.contentX = first.contentX)
    (hy : s.contentY = first.contentY) : s.isCopy first := by
  simp [isCopy, alike, hwidth, hheight, hx, hy]

variable [Add β]

/-- Sections of one size pass after any section of this size that ends a gap before them. -/
theorem checkSectionsAfter_series (k : Constants β) (size : Extent β)
    {first previous : ModeSection β} {x : β} (hwidth : first.width = size.width)
    (hheight : first.height = size.height) (hx : first.contentX = k.sectionPadding)
    (hy : first.contentY = k.sectionPadding + k.titleHeight)
    (hnext : x = previous.x + previous.width + k.modeGap) (modes : List String) :
    checkSectionsAfter k first previous (ModeSection.series k size x modes) = .ok () := by
  induction modes generalizing previous x with
  | nil => rfl
  | cons mode modes ih =>
    rw [ModeSection.series, checkSectionsAfter,
      if_neg (by simp [ModeSection.isCopy_of_eq, hwidth, hheight, hx, hy]),
      if_neg (by simp [hnext])]
    exact ih rfl

theorem checkSections_series (k : Constants β) (size : Extent β) (x : β) (modes : List String) :
    checkSections k (ModeSection.series k size x modes) = .ok () := by
  cases modes with
  | nil => rfl
  | cons mode modes => exact checkSectionsAfter_series k size rfl rfl rfl rfl rfl modes

end

end DesignTokens.Matrix
