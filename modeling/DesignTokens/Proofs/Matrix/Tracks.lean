import DesignTokens.Proofs.Matrix.Cells
import Mathlib

/-!
Tracks in exact lengths. Each track has the greatest size of the cells on it, and starts a gap after
the one in front of it; with gaps that are not below zero no two tracks overlap.
-/
namespace DesignTokens.Matrix

/-! ### Offsets -/

section

variable {α : Type} [Add α] {start gap : α} {sizes : List α} {labels : List String}

theorem getElem?_offsets_zero : (offsets start gap sizes)[0]? = some start := by
  cases sizes <;> rfl

/-- The next offset is a size and a gap further. -/
theorem getElem?_offsets_succ {i : Nat} {offset size : α}
    (ho : (offsets start gap sizes)[i]? = some offset) (hs : sizes[i]? = some size) :
    (offsets start gap sizes)[i + 1]? = some (offset + (size + gap)) := by
  induction sizes generalizing start i with
  | nil => cases hs
  | cons s sizes ih =>
    cases i with
    | zero =>
      obtain rfl := Option.some.inj ho
      obtain rfl := Option.some.inj hs
      exact getElem?_offsets_zero
    | succ i => exact ih ho hs

theorem length_tracks (start gap : α) (h : sizes.length = labels.length) :
    (tracks sizes labels start gap).length = labels.length := by
  rw [← List.length_map (f := (·.label)), map_label_tracks start gap h]

/-- A track has the number, the size and the offset of its place. -/
theorem of_getElem?_tracks {i : Nat} {t : Track α}
    (h : (tracks sizes labels start gap)[i]? = some t) :
    t.index = i ∧ sizes[i]? = some t.size ∧ (offsets start gap sizes)[i]? = some t.offset := by
  rw [tracks, List.getElem?_map] at h
  obtain ⟨⟨⟨⟨size, label⟩, offset⟩, j⟩, hj, rfl⟩ := Option.map_eq_some_iff.mp h
  rw [List.getElem?_zipIdx] at hj
  obtain ⟨⟨⟨_, _⟩, _⟩, hzip, e⟩ := Option.map_eq_some_iff.mp hj
  cases e
  obtain ⟨hsize, hoffset⟩ := List.getElem?_zip_eq_some.mp hzip
  exact ⟨by simp, (List.getElem?_zip_eq_some.mp hsize).1, hoffset⟩

/-- Each track starts a gap after the one in front of it. -/
theorem isChain_tracks (sizes : List α) (labels : List String) (start gap : α) :
    (tracks sizes labels start gap).IsChain fun a b => b.offset = a.offset + (a.size + gap) := by
  rw [List.isChain_iff_getElem]
  intro i hi
  have hi' : i < (tracks sizes labels start gap).length := by omega
  obtain ⟨-, hsize, hoffset⟩ := of_getElem?_tracks (List.getElem?_eq_getElem hi')
  obtain ⟨-, -, hnext⟩ := of_getElem?_tracks (List.getElem?_eq_getElem hi)
  exact Option.some.inj (hnext.symm.trans (getElem?_offsets_succ hoffset hsize))

end

/-! ### Greatest lengths -/

theorem isGreatest_foldl_max (a : ℚ) (xs : List ℚ) :
    IsGreatest {x | x ∈ a :: xs} (xs.foldl max a) := by
  induction xs generalizing a with
  | nil => simp
  | cons b xs ih =>
    obtain ⟨hmem, hle⟩ := ih (max a b)
    constructor
    · rcases List.mem_cons.mp hmem with e | hmem
      · rcases max_choice a b with h | h <;> simp_all
      · exact List.mem_cons_of_mem _ (List.mem_cons_of_mem _ hmem)
    · have hmax := hle List.mem_cons_self
      intro x hx
      rcases List.mem_cons.mp hx with rfl | hx
      · exact (le_max_left _ _).trans hmax
      · rcases List.mem_cons.mp hx with rfl | hx
        · exact (le_max_right _ _).trans hmax
        · exact hle (List.mem_cons_of_mem _ hx)

theorem greatest_nonneg (xs : List ℚ) : 0 ≤ greatest xs :=
  (isGreatest_foldl_max 0 xs).2 List.mem_cons_self

theorem le_greatest {xs : List ℚ} {x : ℚ} (h : x ∈ xs) : x ≤ greatest xs :=
  (isGreatest_foldl_max 0 xs).2 (List.mem_cons_of_mem _ h)

theorem isGreatest_greatest {xs : List ℚ} (hne : xs ≠ []) (h : ∀ x ∈ xs, 0 ≤ x) :
    IsGreatest {x | x ∈ xs} (greatest xs) := by
  obtain ⟨hmem, hle⟩ := isGreatest_foldl_max 0 xs
  refine ⟨?_, fun x hx => le_greatest hx⟩
  rcases List.mem_cons.mp hmem with hzero | hmem
  · -- Nothing is greater than zero, so that the first length is zero as well.
    obtain ⟨x, rest, rfl⟩ := List.exists_cons_of_ne_nil hne
    have hx : x = 0 := le_antisymm (hzero ▸ le_greatest List.mem_cons_self) (h x List.mem_cons_self)
    rw [Set.mem_ofPred, greatest, hzero, ← hx]
    exact List.mem_cons_self
  · exact hmem

/-! ### Tracks in order -/

/-- No track starts before the one in front of it ends. -/
def Ordered (ts : List (Track ℚ)) : Prop :=
  ts.IsChain fun a b => a.finish ≤ b.offset

/-- With sizes that are not below zero each track ends before all that follow start. -/
theorem Ordered.pairwise {ts : List (Track ℚ)} (h : Ordered ts) (hs : ∀ t ∈ ts, 0 ≤ t.size) :
    ts.Pairwise fun a b => a.finish ≤ b.offset := by
  induction ts with
  | nil => exact .nil
  | cons a ts ih =>
    cases ts with
    | nil => exact List.pairwise_singleton _ _
    | cons b ts =>
      obtain ⟨hab, hchain⟩ := List.isChain_cons_cons.mp h
      have hrest := ih hchain fun t ht => hs t (List.mem_cons_of_mem _ ht)
      refine List.pairwise_cons.mpr ⟨?_, hrest⟩
      intro c hc
      rcases List.mem_cons.mp hc with rfl | hc
      · exact hab
      · have hb : b.offset ≤ b.finish :=
          le_add_of_nonneg_right (hs b (List.mem_cons_of_mem _ List.mem_cons_self))
        exact hab.trans (hb.trans ((List.pairwise_cons.mp hrest).1 c hc))

section

variable {start gap : ℚ} {sizes : List ℚ} {labels : List String}

theorem ordered_tracks (hgap : 0 ≤ gap) : Ordered (tracks sizes labels start gap) := by
  refine (isChain_tracks sizes labels start gap).imp ?_
  intro a b hab
  rw [hab, Track.finish]
  linarith

/-- Only a gap below zero between two tracks makes them overlap. -/
theorem ordered_tracks_iff (hlen : sizes.length = labels.length) :
    Ordered (tracks sizes labels start gap) ↔ ¬(gap < 0 ∧ 2 ≤ labels.length) := by
  have hcount := length_tracks start gap hlen
  constructor
  · rintro h ⟨hgap, htwo⟩
    have hle := List.isChain_iff_getElem.mp h 0 (by omega)
    rw [List.isChain_iff_getElem.mp (isChain_tracks sizes labels start gap) 0 (by omega),
      Track.finish] at hle
    linarith
  · intro h
    rcases le_or_gt 0 gap with hgap | hgap
    · exact ordered_tracks hgap
    · have hone : labels.length < 2 := by
        by_contra hlong
        exact h ⟨hgap, by omega⟩
      exact List.isChain_iff_getElem.mpr fun i hi => by omega

end

end DesignTokens.Matrix
