import DesignTokens.Proofs.Matrix.Sound
import Mathlib

/-!
Where the cells of an expanded component stand. Each track is as great as the greatest cell on it; all
cells lie between the start and the end of their grid, and so in each section below its title; and
sections stand side by side.
-/
namespace DesignTokens.Matrix

open Registry (WellFormed)

/-! ### Sizes of tracks -/

theorem place?_eq_some_iff {n i : Nat} {p : Int} (hp : 0 ≤ p) (hi : i < n) :
    place? n p = some i ↔ p = i := by
  rw [place?, if_pos hp]
  split
  · rw [Option.some.injEq]
    omega
  · simp only [reduceCtorEq, false_iff]
    omega

section

variable {cells : List (Cell ℚ)} {n : Nat} {place : Cell ℚ → Int} {size : Cell ℚ → ℚ}

theorem trackSizes_nonneg {x : ℚ} (hx : x ∈ trackSizes n place size cells) : 0 ≤ x := by
  obtain ⟨i, -, rfl⟩ := List.mem_map.mp hx
  exact greatest_nonneg _

/-- A track with cells is as great as the greatest of them. -/
theorem isGreatest_trackSizes {i : Nat} {x : ℚ} (hx : (trackSizes n place size cells)[i]? = some x)
    (hplace : ∀ c ∈ cells, 0 ≤ place c) (hsize : ∀ c ∈ cells, 0 ≤ size c)
    (hne : ∃ c ∈ cells, place c = i) : IsGreatest {s | ∃ c ∈ cells, place c = i ∧ size c = s} x := by
  rw [trackSizes, List.getElem?_map] at hx
  obtain ⟨j, hj, rfl⟩ := Option.map_eq_some_iff.mp hx
  obtain ⟨hi, rfl⟩ := List.getElem?_eq_some_iff.mp hj
  rw [List.length_range] at hi
  rw [List.getElem_range]
  have hon : ∀ s, s ∈ (cells.filter fun c => place? n (place c) == some i).map size ↔
      ∃ c ∈ cells, place c = i ∧ size c = s := by
    intro s
    simp only [List.mem_map, List.mem_filter, beq_iff_eq, and_assoc]
    refine exists_congr fun c => and_congr_right fun hc => ?_
    rw [place?_eq_some_iff (hplace c hc) hi]
  have hnil : (cells.filter fun c => place? n (place c) == some i).map size ≠ [] := by
    obtain ⟨c, hc, hi⟩ := hne
    exact List.ne_nil_of_mem ((hon _).mpr ⟨c, hc, hi, rfl⟩)
  have hnonneg : ∀ s ∈ (cells.filter fun c => place? n (place c) == some i).map size, 0 ≤ s := by
    intro s hs
    obtain ⟨c, hc, -, rfl⟩ := (hon s).mp hs
    exact hsize c hc
  simpa only [hon] using isGreatest_greatest hnil hnonneg

/-- The same for tracks and the cells of a grid. -/
theorem isGreatest_tracks {placed : List (PlacedCell ℚ)} {labels : List String} {start gap : ℚ}
    {i : Nat} {t : Track ℚ}
    (ht : (tracks (trackSizes n place size (placed.map (·.toCell))) labels start gap)[i]? = some t)
    (hplace : ∀ c ∈ placed, 0 ≤ place c.toCell) (hsize : ∀ c ∈ placed, 0 ≤ size c.toCell)
    (hne : ∃ c ∈ placed, place c.toCell = i) :
    IsGreatest {s | ∃ c ∈ placed, place c.toCell = i ∧ size c.toCell = s} t.size := by
  obtain ⟨c, hc, hi⟩ := hne
  have hgreatest := isGreatest_trackSizes (of_getElem?_tracks ht).2.1
  simp only [List.mem_map, forall_exists_index, and_imp, forall_apply_eq_imp_iff₂,
    exists_exists_and_eq_and] at hgreatest
  exact hgreatest hplace hsize c hc hi

end

/-! ### Tracks one after the other -/

/-- Tracks in order, of which none starts before the grid or is of a size below zero. -/
structure Stacked (ts : List (Track ℚ)) : Prop where
  ordered : Ordered ts
  offset : ∀ t ∈ ts, 0 ≤ t.offset
  size : ∀ t ∈ ts, 0 ≤ t.size

theorem le_offsets {start gap : ℚ} {sizes : List ℚ} (hgap : 0 ≤ gap) (hsizes : ∀ s ∈ sizes, 0 ≤ s)
    {x : ℚ} (hx : x ∈ offsets start gap sizes) : start ≤ x := by
  induction sizes generalizing start with
  | nil => exact (List.mem_singleton.mp hx).ge
  | cons s sizes ih =>
    obtain ⟨hs, hsizes⟩ := List.forall_mem_cons.mp hsizes
    rcases List.mem_cons.mp hx with rfl | hx
    · exact le_refl _
    · have hnext := ih hsizes hx
      linarith

theorem stacked_tracks {start gap : ℚ} {sizes : List ℚ} {labels : List String} (hstart : 0 ≤ start)
    (hgap : 0 ≤ gap) (hsizes : ∀ s ∈ sizes, 0 ≤ s) : Stacked (tracks sizes labels start gap) := by
  refine ⟨ordered_tracks hgap, ?_, ?_⟩
  · intro t ht
    obtain ⟨i, hi⟩ := List.mem_iff_getElem?.mp ht
    have hoffset := List.mem_of_getElem? (of_getElem?_tracks hi).2.2
    exact hstart.trans (le_offsets hgap hsizes hoffset)
  · intro t ht
    obtain ⟨i, hi⟩ := List.mem_iff_getElem?.mp ht
    exact hsizes _ (List.mem_of_getElem? (of_getElem?_tracks hi).2.1)

namespace Stacked

variable {ts : List (Track ℚ)} (h : Stacked ts)
include h

theorem finish_nonneg {t : Track ℚ} (ht : t ∈ ts) : 0 ≤ t.finish :=
  add_nonneg (h.offset t ht) (h.size t ht)

/-- All tracks end before the last one does. -/
theorem finish_le {t : Track ℚ} (ht : t ∈ ts) :
    t.finish ≤ (ts.getLast?.map Track.finish).getD 0 := by
  obtain ⟨init, last, rfl⟩ := (List.eq_nil_or_concat' ts).resolve_left (List.ne_nil_of_mem ht)
  rw [List.getLast?_concat, Option.map_some, Option.getD_some]
  rcases List.mem_append.mp ht with ht | ht
  · have hbefore := (List.pairwise_append.mp (h.ordered.pairwise h.size)).2.2 t ht last
      List.mem_cons_self
    have hlast : last ∈ init ++ [last] := List.mem_append_right _ List.mem_cons_self
    exact hbefore.trans (le_add_of_nonneg_right (h.size last hlast))
  · rw [List.mem_singleton.mp ht]

theorem finish_getLast?_nonneg : 0 ≤ (ts.getLast?.map Track.finish).getD 0 := by
  cases hlast : ts.getLast? with
  | none => exact le_refl _
  | some t => exact h.finish_nonneg (List.mem_of_getLast? hlast)

end Stacked

/-! ### Boxes inside others -/

namespace Box

def shift (b : Box) (dx dy : ℚ) : Box := ⟨dx + b.x, dy + b.y, b.width, b.height⟩

theorem Apart.shift {a b : Box} (h : a.Apart b) (dx dy : ℚ) :
    (a.shift dx dy).Apart (b.shift dx dy) := by
  simp only [Apart, Box.shift] at h ⊢
  rcases h with (h | h) | h | h
  · exact .inl (.inl (by linarith))
  · exact .inl (.inr (by linarith))
  · exact .inr (.inl (by linarith))
  · exact .inr (.inr (by linarith))

/-- The box lies in a frame of some size, below a band at the top of the frame. -/
structure Inside (b : Box) (band width height : ℚ) : Prop where
  left : 0 ≤ b.x
  right : b.x + b.width ≤ width
  top : band ≤ b.y
  bottom : b.y + b.height ≤ height

end Box

/-! ### Grids -/

/-- No length that a layout adds is below zero. -/
structure Constants.Nonneg (k : Constants ℚ) : Prop where
  sectionPadding : 0 ≤ k.sectionPadding
  sectionGap : 0 ≤ k.sectionGap
  modeGap : 0 ≤ k.modeGap
  titleHeight : 0 ≤ k.titleHeight
  gapX : 0 ≤ k.gapX
  gapY : 0 ≤ k.gapY
  headerRowHeight : 0 ≤ k.headerRowHeight
  labelColumnWidth : 0 ≤ k.labelColumnWidth

/-- Each row is as high as its highest cell, and each column as wide as its widest one. -/
structure Grid.Tight (g : Grid ℚ) : Prop where
  rows : ∀ (i : Nat) (row : Track ℚ), g.rows[i]? = some row →
    IsGreatest {s | ∃ c ∈ g.cells, c.row = i ∧ c.extent.height = s} row.size
  cols : ∀ (i : Nat) (col : Track ℚ), g.cols[i]? = some col →
    IsGreatest {s | ∃ c ∈ g.cells, c.col = i ∧ c.extent.width = s} col.size

theorem size_pos {axes : List VariantAxis} (h : ∀ a ∈ axes, a.values ≠ []) : 0 < size axes := by
  induction axes with
  | nil => exact Nat.one_pos
  | cons a axes ih =>
    obtain ⟨ha, haxes⟩ := List.forall_mem_cons.mp h
    rw [size_cons]
    exact Nat.mul_pos (List.length_pos_iff.mpr ha) (ih haxes)

theorem mem_of_item? {β : Type} {xs : List β} {i : Int} {x : β} (h : item? xs i = some x) :
    x ∈ xs := by
  obtain ⟨_, -, hx⟩ := item?_eq_some_iff.mp h
  exact List.mem_of_getElem? hx

namespace Expands

variable {g : Generator ℚ} {c : Component} {m : Matrix ℚ} (h : Expands g c m)
include h

section

variable (hk : g.constants.Nonneg)
include hk

theorem stacked_rows : Stacked m.grid.rows := by
  rw [(ofCells?_eq_some h.grid).1]
  exact stacked_tracks (add_nonneg hk.headerRowHeight hk.gapY) hk.gapY fun _ => trackSizes_nonneg

theorem stacked_cols : Stacked m.grid.cols := by
  rw [(ofCells?_eq_some h.grid).2.1]
  exact stacked_tracks (add_nonneg hk.labelColumnWidth hk.gapX) hk.gapX fun _ => trackSizes_nonneg

theorem width_nonneg : 0 ≤ m.grid.width := (h.stacked_cols hk).finish_getLast?_nonneg

theorem height_nonneg : 0 ≤ m.grid.height := (h.stacked_rows hk).finish_getLast?_nonneg

/-- The cells lie between the start of the grid and its end. -/
theorem inside {x : PlacedCell ℚ} (hx : x ∈ m.grid.cells) :
    x.box.Inside 0 m.grid.width m.grid.height := by
  obtain ⟨row, col, hrow, hcol, hin⟩ := (cells_of_checkGrid h.passed).2 x hx
  have hrow := mem_of_item? hrow
  have hcol := mem_of_item? hcol
  exact ⟨((h.stacked_cols hk).offset col hcol).trans hin.within.left,
    hin.within.right.trans ((h.stacked_cols hk).finish_le hcol),
    ((h.stacked_rows hk).offset row hrow).trans hin.within.top,
    hin.within.bottom.trans ((h.stacked_rows hk).finish_le hrow)⟩

end

section

variable (hw : WellFormed c.axes)
include hw

theorem forward : m.grid.Forward := by
  intro x hx
  obtain ⟨⟨hrow, -⟩, hcol, -⟩ := (h.mem_places hw).mp (List.mem_map_of_mem hx)
  exact ⟨hrow, hcol⟩

theorem pairwise_apart (hk : g.constants.Nonneg) :
    m.grid.cells.Pairwise fun a b => a.box.Apart b.box :=
  pairwise_apart_of_checkGrid (h.forward hw) (h.stacked_rows hk).size (h.stacked_cols hk).size
    h.passed

/-- Every track has a cell, and so the size of one. -/
theorem tight (hvalues : ∀ a ∈ c.axes, a.values ≠ [])
    (hextent : ∀ x ∈ m.grid.cells, 0 ≤ x.extent.width ∧ 0 ≤ x.extent.height) : m.grid.Tight := by
  have hrows : 0 < size m.assignment.rowAxes :=
    size_pos fun a ha => hvalues a ((h.splits hw).row_subset ha)
  have hcols : 0 < size m.assignment.colAxes :=
    size_pos fun a ha => hvalues a ((h.splits hw).col_subset ha)
  obtain ⟨hrowTracks, hcolTracks, hcells⟩ := ofCells?_eq_some h.grid
  constructor
  · intro i row hrow
    have hi := (List.getElem?_eq_some_iff.mp hrow).1
    rw [h.length_rows] at hi
    obtain ⟨x, hx, -, hxi, -⟩ := h.cellAt?_eq_some hw hi hcols
    rw [hrowTracks, ← hcells] at hrow
    exact isGreatest_tracks hrow (fun x hx => (h.forward hw x hx).1) (fun x hx => (hextent x hx).2)
      ⟨x, hx, hxi⟩
  · intro i col hcol
    have hi := (List.getElem?_eq_some_iff.mp hcol).1
    rw [h.length_cols] at hi
    obtain ⟨x, hx, -, -, hxi⟩ := h.cellAt?_eq_some hw hrows hi
    rw [hcolTracks, ← hcells] at hcol
    exact isGreatest_tracks hcol (fun x hx => (h.forward hw x hx).2) (fun x hx => (hextent x hx).1)
      ⟨x, hx, hxi⟩

end

end Expands

/-! ### Sections -/

section

variable {k : Constants ℚ} {size : Extent ℚ} (hwidth : 0 ≤ size.width) (hgap : 0 ≤ k.modeGap)
include hwidth hgap

theorem le_series {x : ℚ} {modes : List String} {m : ModeSection ℚ}
    (h : m ∈ ModeSection.series k size x modes) : x ≤ m.x := by
  induction modes generalizing x with
  | nil => cases h
  | cons mode modes ih =>
    rcases List.mem_cons.mp h with rfl | h
    · exact le_refl x
    · have hnext := ih h
      linarith

/-- Each section ends before those that follow start. -/
theorem pairwise_series (x : ℚ) (modes : List String) :
    (ModeSection.series k size x modes).Pairwise fun a b => a.x + a.width ≤ b.x := by
  induction modes generalizing x with
  | nil => exact .nil
  | cons mode modes ih =>
    refine .cons ?_ (ih _)
    intro b hb
    have hnext := le_series hwidth hgap hb
    linarith

end

namespace Expands

variable {g : Generator ℚ} {c : Component} {m : Matrix ℚ} (h : Expands g c m)
include h

theorem mem_sections {s : ModeSection ℚ} (hs : s ∈ m.sections) :
    s.width = m.grid.width + (g.constants.sectionPadding + g.constants.sectionPadding) ∧
      s.height = g.constants.titleHeight + m.grid.height +
        (g.constants.sectionPadding + g.constants.sectionPadding) ∧
      s.contentX = g.constants.sectionPadding ∧
      s.contentY = g.constants.sectionPadding + g.constants.titleHeight :=
  mem_series (h.sections ▸ hs)

variable (hk : g.constants.Nonneg)
include hk

theorem pairwise_sections : m.sections.Pairwise fun a b => a.x + a.width ≤ b.x := by
  rw [h.sections]
  refine pairwise_series ?_ hk.modeGap _ _
  exact add_nonneg (h.width_nonneg hk) (add_nonneg hk.sectionPadding hk.sectionPadding)

/-- In each section all cells lie below the title and inside the frame. -/
theorem inside_section {s : ModeSection ℚ} (hs : s ∈ m.sections) {x : PlacedCell ℚ}
    (hx : x ∈ m.grid.cells) :
    (x.box.shift s.contentX s.contentY).Inside
      (g.constants.sectionPadding + g.constants.titleHeight) s.width s.height := by
  obtain ⟨hwidth, hheight, hcontentX, hcontentY⟩ := h.mem_sections hs
  have hin := h.inside hk hx
  have hpadding := hk.sectionPadding
  have hleft := hin.left
  have hright := hin.right
  have htop := hin.top
  have hbottom := hin.bottom
  rw [hwidth, hheight, hcontentX, hcontentY]
  constructor <;> (rw [Box.shift]; linarith)

theorem section_height_nonneg {s : ModeSection ℚ} (hs : s ∈ m.sections) : 0 ≤ s.height := by
  rw [(h.mem_sections hs).2.1]
  exact add_nonneg (add_nonneg hk.titleHeight (h.height_nonneg hk))
    (add_nonneg hk.sectionPadding hk.sectionPadding)

end Expands

/-- A matrix is as high as its highest section. -/
theorem le_height {m : Matrix ℚ} {s : ModeSection ℚ} (hs : s ∈ m.sections) :
    s.height ≤ m.height := by
  have hmem : s.height ∈ m.sections.map (·.height) := List.mem_map_of_mem hs
  rw [height]
  split
  · rename_i hnil
    rw [hnil] at hmem
    cases hmem
  · rename_i x xs hcons
    rw [hcons] at hmem
    exact (isGreatest_foldl_max x xs).2 hmem

theorem height_nonneg_of_sections {m : Matrix ℚ} (h : ∀ s ∈ m.sections, 0 ≤ s.height) :
    0 ≤ m.height := by
  cases hsections : m.sections with
  | nil =>
    rw [height, hsections]
    exact le_refl _
  | cons s _ =>
    have hs : s ∈ m.sections := hsections ▸ List.mem_cons_self
    exact (h s hs).trans (le_height hs)

end DesignTokens.Matrix
