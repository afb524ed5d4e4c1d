import DesignTokens.Proofs.Matrix.Combinations
import Mathlib.Algebra.BigOperators.Group.List.Basic
import Mathlib.Data.List.Perm.Subperm

/-!
Splitting the axes of a component into row axes and column axes. The row number and the column number
of a combination make up its place, and the places of all combinations fill a rectangle.
-/
namespace DesignTokens.Matrix

open Registry (WellFormed)

/-- Whether an axis indexes rows: it is wished for, or it is the first one where there is no wish. -/
def indexesRows (c : Component) (wished : Option (List String)) (a : VariantAxis) : Bool :=
  match wished with
  | none => c.axes.head?.map (·.name) == some a.name
  | some names => names.contains a.name

/-- The row axes and the column axes together are the axes. -/
def Splits (s : Assignment) (axes : List VariantAxis) : Prop :=
  (s.rowAxes ++ s.colAxes).Perm axes

/-- The row and the column of a combination. -/
def place (s : Assignment) (v : Combination) : Nat × Nat :=
  (trackIndex s.rowAxes v, trackIndex s.colAxes v)

/-- The places of a rectangle, row by row. -/
def rowMajor (rows cols : Nat) : List (Nat × Nat) :=
  (List.range rows).flatMap fun r => (List.range cols).map fun k => (r, k)

theorem length_rowMajor (rows cols : Nat) : (rowMajor rows cols).length = rows * cols := by
  simp [rowMajor, List.length_flatMap]

@[simp] theorem mem_rowMajor {rows cols : Nat} {p : Nat × Nat} :
    p ∈ rowMajor rows cols ↔ p.1 < rows ∧ p.2 < cols := by
  obtain ⟨r, k⟩ := p
  simp [rowMajor]

theorem getElem?_rowMajor {rows cols r k : Nat} (hr : r < rows) (hk : k < cols) :
    (rowMajor rows cols)[r * cols + k]? = some (r, k) := by
  refine getElem?_flatMap_block (x := r) (fun _ _ => by simp) ?_ ?_
  · simp [hr]
  · simp [hk]

/-! ### Assignments -/

theorem filter_head {c : Component} (hn : (c.axes.map (·.name)).Nodup) :
    c.axes.filter (indexesRows c none) = c.axes.take 1 ∧
      c.axes.filter (fun a => !indexesRows c none a) = c.axes.drop 1 := by
  cases haxes : c.axes with
  | nil => simp
  | cons a axes =>
    rw [haxes, List.map_cons, List.nodup_cons] at hn
    have hfirst : indexesRows c none a = true := by simp [indexesRows, haxes]
    have hother : ∀ b ∈ axes, indexesRows c none b = false := by
      intro b hb
      have hne : a.name ≠ b.name := fun e => hn.1 (e ▸ List.mem_map_of_mem hb)
      simpa [indexesRows, haxes] using hne
    constructor
    · rw [List.filter_cons_of_pos hfirst, List.filter_eq_nil_iff.mpr]
      · rfl
      · intro b hb
        simp [hother b hb]
    · rw [List.filter_cons_of_neg (by simp [hfirst]), List.filter_eq_self.mpr]
      · rfl
      · intro b hb
        simp [hother b hb]

/-- The row axes are those that index rows and the column axes all others. -/
theorem assign_eq_ok {c : Component} {wished : Option (List String)} {s : Assignment}
    (hn : (c.axes.map (·.name)).Nodup) (h : assign c wished = .ok s) :
    s = ⟨c.axes.filter (indexesRows c wished),
      c.axes.filter fun a => !indexesRows c wished a⟩ := by
  cases wished with
  | none =>
    obtain ⟨hrow, hcol⟩ := filter_head hn
    rw [hrow, hcol]
    exact (Except.ok.inj h).symm
  | some names =>
    simp only [assign] at h
    split at h
    · exact (Except.ok.inj h).symm
    · cases h

theorem splits_filter (axes : List VariantAxis) (isRow : VariantAxis → Bool) :
    Splits ⟨axes.filter isRow, axes.filter fun a => !isRow a⟩ axes :=
  List.filter_append_perm _ _

namespace Splits

variable {s : Assignment} {axes : List VariantAxis}

theorem row_subset (h : Splits s axes) : s.rowAxes ⊆ axes :=
  fun _ ha => List.Perm.subset h (List.mem_append_left _ ha)

theorem col_subset (h : Splits s axes) : s.colAxes ⊆ axes :=
  fun _ ha => List.Perm.subset h (List.mem_append_right _ ha)

theorem size_mul (h : Splits s axes) : size s.rowAxes * size s.colAxes = size axes := by
  have hprod := (List.Perm.map (·.values.length) h).prod_eq
  rwa [List.map_append, List.prod_append] at hprod

end Splits

/-! ### Places -/

section

variable {s : Assignment} {axes : List VariantAxis} (hs : Splits s axes) (hw : WellFormed axes)
include hs hw

/-- No two combinations share a place. -/
theorem place_injective {v w : Combination} (hv : IsCombination axes v)
    (hv' : IsCombination axes w) (h : place s v = place s w) : v = w := by
  have hcov := hv.covers hw.names
  have hcov' := hv'.covers hw.names
  obtain ⟨hrow, hcol⟩ := Prod.mk.inj h
  -- Equal numbers are equal places in the list of the combinations of the row or column axes.
  have hpart : ∀ part, part ⊆ axes → trackIndex part v = trackIndex part w →
      restrict part v = restrict part w := by
    intro part hsub e
    have hkeys : ∀ a ∈ part, a.keys.Nodup := fun a ha => hw.keys a (hsub ha)
    have hplace := getElem?_trackIndex hkeys (hcov.of_subset hsub)
    rw [e, getElem?_trackIndex hkeys (hcov'.of_subset hsub)] at hplace
    exact (Option.some.inj hplace).symm
  have hrows := get?_eq_of_restrict_eq (hcov.of_subset hs.row_subset)
    (hpart _ hs.row_subset hrow)
  have hcols := get?_eq_of_restrict_eq (hcov.of_subset hs.col_subset)
    (hpart _ hs.col_subset hcol)
  refine hv.eq_of_get? hw.names hv' ?_
  intro a ha
  rcases List.mem_append.mp ((List.Perm.symm hs).subset ha) with ha | ha
  · exact hrows a ha
  · exact hcols a ha

theorem place_mem_rowMajor {v : Combination} (hv : IsCombination axes v) :
    place s v ∈ rowMajor (size s.rowAxes) (size s.colAxes) := by
  have hcov := hv.covers hw.names
  have hrow := trackIndex_lt (fun a ha => hw.keys a (hs.row_subset ha))
    (hcov.of_subset hs.row_subset)
  have hcol := trackIndex_lt (fun a ha => hw.keys a (hs.col_subset ha))
    (hcov.of_subset hs.col_subset)
  exact mem_rowMajor.mpr ⟨hrow, hcol⟩

theorem nodup_places : ((combinations axes).map (place s)).Nodup := by
  refine List.Nodup.map_on ?_ (nodup_combinations fun a ha => List.Nodup.of_map _ (hw.keys a ha))
  intro v hv w hv' e
  exact place_injective hs hw (mem_combinations.mp hv) (mem_combinations.mp hv') e

/-- The combinations fill the rectangle of rows and columns. -/
theorem places_perm :
    ((combinations axes).map (place s)).Perm (rowMajor (size s.rowAxes) (size s.colAxes)) := by
  have hsub : (combinations axes).map (place s) ⊆
      rowMajor (size s.rowAxes) (size s.colAxes) := by
    intro p hp
    obtain ⟨v, hv, rfl⟩ := List.mem_map.mp hp
    exact place_mem_rowMajor hs hw (mem_combinations.mp hv)
  -- As many places as there are combinations leave none of them empty.
  have hlen : (rowMajor (size s.rowAxes) (size s.colAxes)).length =
      ((combinations axes).map (place s)).length := by
    rw [length_rowMajor, hs.size_mul, List.length_map, length_combinations]
  exact (List.subperm_of_subset (nodup_places hs hw) hsub).perm_of_length_le hlen.le

end

end DesignTokens.Matrix
