import DesignTokens.Proofs.Config.Reloaded
import DesignTokens.Proofs.Decimal.Signs
import DesignTokens.Proofs.Matrix.Styled
import DesignTokens.Proofs.Theme.Regular
import DesignTokens.Proofs.Utility.Levels

/-!
Extents of cells. The sides of an element are cut off at zero, and so is the width of a cell, as the
greatest of those of its elements. But the height of a cell is a sum, in which the gap between the
elements has a share of its own: a gap in brackets may be below zero, and then the height may be so.
-/
namespace DesignTokens

/-! ### Gaps -/

/-- No step of a scale without negative steps is below zero. -/
theorem Theme.SpacingScale.resolve_nonneg {s : Theme.SpacingScale}
    (hscale : ∀ x ∈ s.floats, 0 ≤ x) {key : String} {px : Float} (h : s.resolve key = some px)
    (hpx : px.isNaN = false) : 0 ≤ px := by
  obtain ⟨hbase, hsteps⟩ := List.forall_mem_cons.mp hscale
  rw [resolve] at h
  split at h
  · rename_i step hstep
    obtain rfl := Option.some.inj h
    have hmem : step ∈ Table.values s.scale := List.mem_map_of_mem (Table.mem_of_get? hstep)
    exact hsteps step (.tail _ hmem)
  · simp only [Option.bind_eq_bind, Option.bind_eq_some_iff] at h
    obtain ⟨multiplier, -, h⟩ := h
    split at h
    · cases h
    rename_i hmultiplier
    obtain ⟨hsign, hfinite⟩ : ¬multiplier < 0 ∧ Decimal.isFinite multiplier := by
      simpa using hmultiplier
    obtain ⟨b, hb⟩ := Option.isSome_iff_exists.mp hfinite
    have hnonneg := (Decimal.lt_zero_or_zero_le (Decimal.isNaN_eq_false hb)).resolve_left hsign
    obtain rfl := Option.some.inj h
    rcases Decimal.mul_nonneg hnonneg hbase with hproduct | hnan
    · exact Decimal.roundPlaces_nonneg hproduct (by decide)
    · rw [Decimal.isNaN_roundPlaces (by decide), hnan] at hpx
      cases hpx

/-- Where the items that are found are taken further, the first of them is. -/
theorem exists_of_findSome?_bind {α β γ : Type} {f : α → Option β} {g : α → β → Option γ}
    (h : ∀ a b, f a = some b → (g a b).isSome) {xs : List α} {c : γ}
    (hc : xs.findSome? (fun a => (f a).bind (g a)) = some c) :
    ∃ a ∈ xs, ∃ b, xs.findSome? f = some b ∧ g a b = some c := by
  induction xs with
  | nil => cases hc
  | cons x xs ih =>
    cases hx : f x with
    | none =>
      simp only [List.findSome?_cons, hx, Option.bind_none] at hc
      obtain ⟨a, ha, b, hb, hg⟩ := ih hc
      exact ⟨a, .tail _ ha, b, by simpa [hx] using hb, hg⟩
    | some b =>
      obtain ⟨c', hg⟩ := Option.isSome_iff_exists.mp (h x b hx)
      simp only [List.findSome?_cons, hx, Option.bind_some, hg] at hc
      exact ⟨x, .head _, b, by simp [hx], hg.trans hc⟩

/-- Filling adds a gap where the classes leave none. -/
theorem Style.Filled.gap_resolved {styling : Table Json} {s t : Style Number}
    (h : Filled styling s t) :
    t.gaps.resolved .y = (s.gaps.resolved .y).or (numberUnder styling "gap") := by
  have hy : t.gaps.y = s.gaps.y :=
    h.kept (.gap (.axis .y)) fun e => by cases e <;> simp [Fillable.field]
  have hwhole : t.gaps.whole = (s.gaps.whole <|> numberUnder styling "gap") :=
    h.filled "gap" .gap rfl
  simp only [Gaps.resolved, Gaps.get, hy, hwhole, Option.orElse_eq_orElse, Option.orElse_eq_or,
    Option.or_assoc]

namespace Utility

open Style (Level Place)

variable {scales : Theme.Scales} {settings : Settings}

/-- Whether the value in brackets is a length below zero. -/
def isBelowZero (settings : Settings) (t : Token) : Bool :=
  (t.arbitrary.bind (arbitraryLength settings)).any fun px => px < 0

/-- The token that decides the vertical gap: the last of the most specific level that has one. -/
def gapToken? (scales : Theme.Scales) (settings : Settings) (classes : String) : Option Token :=
  (Place.gap .y).levels.findSome? fun l => (tokensOn scales settings l classes).getLast?

/-- Whether the vertical gap is a length below zero in brackets. -/
def gapBelowZero (scales : Theme.Scales) (settings : Settings) (classes : String) : Bool :=
  (gapToken? scales settings classes).any (isBelowZero settings)

theorem exists_gapToken {classes : String} {n : Number}
    (h : (parse scales settings classes).appearance.base.gaps.resolved .y = some n) :
    ∃ part t, gapToken? scales settings classes = some t ∧
      givenLength? scales settings (.gap part) t = some n := by
  have hgiven (l : Level) (t : Token)
      (ht : (tokensOn scales settings l classes).getLast? = some t) :
      (givenLength? scales settings l t).isSome :=
    (List.mem_filter.mp (List.mem_of_getLast? ht)).2
  have hresolved := Place.resolved_eq_findSome? (parse scales settings classes).appearance.base
    (.gap .y)
  simp only [funext fun l => get_parse scales settings l classes] at hresolved
  obtain ⟨l, hl, t, ht, hn⟩ := exists_of_findSome?_bind hgiven (hresolved.symm.trans h)
  obtain ⟨part, rfl⟩ : ∃ part, l = .gap part := by
    simp only [Place.levels, List.mem_cons, List.not_mem_nil, or_false] at hl
    rcases hl with rfl | rfl <;> exact ⟨_, rfl⟩
  exact ⟨part, t, ht, hn⟩

/-- The length of a gap has no sign of its own. -/
theorem exists_spacingValue {part : GapPart} {t : Token} {n : Number}
    (h : givenLength? scales settings (.gap part) t = some n) :
    ∃ value px, spacingValue scales settings t value = some px ∧ n = .float px := by
  rw [givenLength?] at h
  split at h
  · cases h
  split at h
  · rename_i family value hlookup
    split at h
    · rw [levelLength?, Option.ite_none_left_eq_some] at h
      obtain ⟨hmarks, h⟩ := h
      have hpositive : t.negative = false := by
        simp only [isSigned] at hmarks
        simp_all
      rw [hpositive] at h
      obtain ⟨px, hpx, rfl⟩ := Option.map_eq_some_iff.mp h
      exact ⟨value, px, hpx, rfl⟩
    · cases h
  · cases h

/-- A gap is below zero only in brackets. -/
theorem notBelowZero_of_givenLength? (hscale : ∀ x ∈ scales.spacing.floats, 0 ≤ x)
    {part : GapPart} {t : Token} {n : Number}
    (h : givenLength? scales settings (.gap part) t = some n) (ht : ¬isBelowZero settings t) :
    n.NotBelowZero := by
  intro hn
  obtain ⟨value, px, hpx, rfl⟩ := exists_spacingValue h
  have hnumber : px.isNaN = false := by simpa [Number.isValue] using hn
  rw [spacingValue] at hpx
  split at hpx
  · rename_i a harbitrary
    rw [isBelowZero, harbitrary, Option.bind_some, hpx] at ht
    exact (Decimal.lt_zero_or_zero_le hnumber).resolve_left (by simpa using ht)
  · rw [Option.ite_none_left_eq_some] at hpx
    exact Theme.SpacingScale.resolve_nonneg hscale hpx.2 hnumber

end Utility

namespace Matrix

open Utility (Settings gapBelowZero parse)

/-! ### Sums over elements -/

/-- The style of the root among the styles of a cell. -/
def rootOf (styles : Styles) : Style Number := ((Table.get? rootElement styles).getD {}).base

/-- The vertical gap of the root. -/
def rootGap (styles : Styles) : Number := orZero ((rootOf styles).gaps.resolved .y)

/-- The elements of a cell with their texts, the root first. -/
def elements (styles : Styles) (text : String) : List (Style Number × String) :=
  (rootOf styles, text) :: (Table.erase rootElement styles).map fun p => (p.2.base, p.1)

/-- The extent of a cell with one more element at its end. -/
def Extent.stack (k : Constants Number) (gap : Number) (e : Extent Number)
    (element : Style Number × String) : Extent Number :=
  let sub := elementExtent k element.1 element.2
  ⟨max e.width sub.width, e.height + (gap + sub.height)⟩

/-- The extent of a cell before it is rounded. -/
def total (k : Constants Number) (styles : Styles) (text : String) : Extent Number :=
  (elements styles text).tail.foldl (Extent.stack k (rootGap styles))
    (elementExtent k (rootOf styles) text)

theorem measure_eq (k : Constants Number) (styles : Styles) (text : String) :
    measure k styles text =
      ⟨(total k styles text).width.round 3, (total k styles text).height.round 3⟩ := by
  rw [total, elements, List.tail_cons, List.foldl_map]
  rfl

section

variable {P : Number → Prop} {k : Constants Number}

theorem width_foldl_stack (gap : Number) {rest : List (Style Number × String)}
    (hrest : ∀ element ∈ rest, P (elementExtent k element.1 element.2).width) {e : Extent Number}
    (h : P e.width) : P (rest.foldl (Extent.stack k gap) e).width := by
  induction rest generalizing e with
  | nil => exact h
  | cons element rest ih =>
    obtain ⟨helement, hrest⟩ := List.forall_mem_cons.mp hrest
    refine ih hrest ?_
    change P (max e.width (elementExtent k element.1 element.2).width)
    rcases Number.max_cases e.width (elementExtent k element.1 element.2).width with hmax | hmax
    · rwa [hmax]
    · rwa [hmax]

theorem height_foldl_stack (hadd : ∀ m n, P m → P n → P (m + n)) {gap : Number} (hgap : P gap)
    {rest : List (Style Number × String)}
    (hrest : ∀ element ∈ rest, P (elementExtent k element.1 element.2).height) {e : Extent Number}
    (h : P e.height) : P (rest.foldl (Extent.stack k gap) e).height := by
  induction rest generalizing e with
  | nil => exact h
  | cons element rest ih =>
    obtain ⟨helement, hrest⟩ := List.forall_mem_cons.mp hrest
    exact ih hrest (hadd _ _ h (hadd _ _ hgap helement))

variable {styles : Styles} {text : String}

/-- A width inherits what the widths of all elements have. -/
theorem width_measure (hround : ∀ n, P n → P (n.round 3))
    (h : ∀ element ∈ elements styles text, P (elementExtent k element.1 element.2).width) :
    P (measure k styles text).width := by
  obtain ⟨hroot, hrest⟩ := List.forall_mem_cons.mp h
  rw [measure_eq]
  exact hround _ (width_foldl_stack _ hrest hroot)

/-- A height inherits what sums keep, from the gap and the heights of all elements. -/
theorem height_measure (hround : ∀ n, P n → P (n.round 3)) (hadd : ∀ m n, P m → P n → P (m + n))
    (hgap : P (rootGap styles))
    (h : ∀ element ∈ elements styles text, P (elementExtent k element.1 element.2).height) :
    P (measure k styles text).height := by
  obtain ⟨hroot, hrest⟩ := List.forall_mem_cons.mp h
  rw [measure_eq]
  exact hround _ (height_foldl_stack hadd hgap hrest hroot)

end

/-! ### Extents at least zero -/

/-- The sides of the elements of a cell are numbers, and so is the gap between them. -/
structure Sized (k : Constants Number) (styles : Styles) (text : String) : Prop where
  gap : (rootGap styles).isValue
  widths : ∀ e ∈ elements styles text, (elementWidth k e.1 e.2).isValue
  heights : ∀ e ∈ elements styles text, (elementHeight e.1).isValue

section

variable {k : Constants Number} {styles : Styles} {text : String}

theorem notBelowZero_width : (measure k styles text).width.NotBelowZero :=
  width_measure (fun _ h => h.round (by decide)) fun _ _ => Number.nonneg_max_zero

theorem notBelowZero_height (hgap : (rootGap styles).NotBelowZero) :
    (measure k styles text).height.NotBelowZero :=
  height_measure (fun _ h => h.round (by decide)) (fun _ _ hm hn => hm.add hn) hgap
    fun _ _ => Number.nonneg_max_zero

theorem Sized.nonneg_width (h : Sized k styles text) : (measure k styles text).width.Nonneg :=
  width_measure (fun _ hn => hn.round (by decide)) fun e he =>
    Number.nonneg_max_zero (Number.isValue_max_zero (h.widths e he))

/-- A sum of integers may be too great for the float that it meets. -/
theorem Sized.nonneg_height (h : Sized k styles text) (hgap : (rootGap styles).NotBelowZero) :
    (measure k styles text).height.NonnegOrLost :=
  height_measure (fun _ hn => hn.round (by decide)) (fun _ _ hm hn => hm.add hn) (.inl (hgap h.gap))
    fun e he => .inl (Number.nonneg_max_zero (Number.isValue_max_zero (h.heights e he)))

end

variable {scales : Theme.Scales} {settings : Settings} {c : Component}

/-- The class string of the root: that of a sub-component under its name, or else the base classes
and those of the values. -/
def rootClasses (c : Component) (v : Combination) : String :=
  (Table.get? rootElement (styledParts c)).getD (String.intercalate " " (c.baseClasses.getD "" ::
    v.map fun p => ((c.axis? p.1).bind fun a => a.classFor? p.2.key).getD ""))

variable (scales settings) in
/-- The root has the style of its classes, filled from the styling if it has its own. -/
theorem exists_filled_root (hc : Registry.Accepted c) {v : Combination}
    (hv : IsCombination c.axes v) : ∃ styling, (styling = c.styling ∨ styling = []) ∧
      Style.Filled styling (parse scales settings (rootClasses c v)).appearance.base
        (rootOf (resolveStyles scales settings c v).1) := by
  have hstyles : StylesOf scales settings c v (resolveStyles scales settings c v).1 :=
    stylesOf_resolveStyles hc hv
  cases hpart : Table.get? rootElement (styledParts c) with
  | none =>
    obtain ⟨classes, root, hclasses, hroot, -, hfilled⟩ :=
      hstyles.root (Table.get?_eq_none_iff.mp hpart)
    rw [rootClasses, hpart, rootOf, hroot, hclasses.map_eq hc.wellFormed.names (List.Subset.refl _)]
    exact ⟨c.styling, .inl rfl, hfilled⟩
  | some s =>
    obtain ⟨sub, hsub, hs, hne⟩ := mem_styledParts.mp (Table.mem_of_get? hpart)
    rw [rootClasses, hpart, rootOf, hstyles.parts _ sub s hsub hs hne]
    exact ⟨[], .inr rfl, Style.filled_nil _⟩

theorem orZero_cases (o : Option Number) : orZero o = .float 0 ∨ o = some (orZero o) := by
  rw [orZero]
  cases h : nonzero o with
  | none => exact .inl rfl
  | some n => exact .inr (Option.filter_eq_some_iff.mp h).1

/-- The gap of a root is below zero only if it is so in brackets. -/
theorem notBelowZero_rootGap (hscale : ∀ x ∈ scales.spacing.floats, 0 ≤ x)
    (hc : Registry.Accepted c)
    (hgap : ∀ n, Style.numberUnder c.styling "gap" = some n → n.Nonneg) {v : Combination}
    (hv : IsCombination c.axes v) (hclasses : ¬gapBelowZero scales settings (rootClasses c v)) :
    (rootGap (resolveStyles scales settings c v).1).NotBelowZero := by
  obtain ⟨styling, hstyling, hfilled⟩ := exists_filled_root scales settings hc hv
  rcases orZero_cases ((rootOf (resolveStyles scales settings c v).1).gaps.resolved .y) with
    hzero | hsome
  · rw [rootGap, hzero]
    exact fun _ => Number.nonneg_zero
  change _ = some (rootGap _) at hsome
  rw [hfilled.gap_resolved, Option.or_eq_some_iff] at hsome
  rcases hsome with hparsed | ⟨-, hnumber⟩
  · obtain ⟨part, t, ht, hgiven⟩ := Utility.exists_gapToken hparsed
    rw [gapBelowZero, ht] at hclasses
    exact Utility.notBelowZero_of_givenLength? hscale hgiven (by simpa using hclasses)
  · rcases hstyling with rfl | rfl
    · exact fun _ => hgap _ hnumber
    · cases hnumber

/-- No width of a cell is below zero, and no height is, unless the classes of the root set a gap
below zero in brackets. What has no value comes from the sides of an element or from the gap, or is
lost in a sum. -/
theorem extents_nonneg (k : Constants Number) (modes : List String) (rowAxes : Table (List String))
    (hscale : ∀ x ∈ scales.spacing.floats, 0 ≤ x) (hc : Registry.Accepted c)
    (hgap : ∀ n, Style.numberUnder c.styling "gap" = some n → n.Nonneg) (a : Assignment)
    {x : Cell Number}
    (hx : x ∈ (Generator.ofTheme scales settings k modes rowAxes).cells c a) :
    x.extent.width.NotBelowZero ∧ (Sized k x.styles c.name → x.extent.width.Nonneg) ∧
      (¬gapBelowZero scales settings (rootClasses c x.values) →
        x.extent.height.NotBelowZero ∧
          (Sized k x.styles c.name → x.extent.height.NonnegOrLost)) := by
  obtain ⟨v, hv, rfl⟩ := List.mem_map.mp (List.mem_mergeSort.mp hx)
  refine ⟨notBelowZero_width, Sized.nonneg_width, fun hclasses => ?_⟩
  have hrootGap := notBelowZero_rootGap hscale hc hgap (mem_combinations.mp hv) hclasses
  exact ⟨notBelowZero_height hrootGap, fun h => h.nonneg_height hrootGap⟩

/-! ### Plates with a gap -/

/-- The one cell of a plate. -/
def plateCell (classes part : String) : Cell Number :=
  panelGenerator.cell (plate classes part) ⟨[], []⟩ []

/-- A plate whose vertical gap beats the common one, which is below zero. -/
def tightPlate : Component := plate "gap-y-px gap-[-100px]" "h-[10px]"

theorem mem_cells_plate (classes part : String) :
    plateCell classes part ∈ panelGenerator.cells (plate classes part) ⟨[], []⟩ := by
  rw [cells_plate]
  exact List.mem_singleton_self _

theorem styling_plate (classes part : String) :
    ∀ name n, Style.numberUnder (plate classes part).styling name = some n → n.Nonneg := by
  intro name n h
  cases h

theorem extents_nonneg_tightPlate :
    (∀ x ∈ Theme.Scales.plain.spacing.floats, 0 ≤ x) ∧ Registry.Accepted tightPlate ∧
      (∀ n, Style.numberUnder tightPlate.styling "gap" = some n → n.Nonneg) ∧
      ∃ x ∈ panelGenerator.cells tightPlate ⟨[], []⟩,
        ¬gapBelowZero .plain {} (rootClasses tightPlate x.values) ∧
          Sized .default x.styles tightPlate.name ∧
          x.extent.width.Nonneg ∧ x.extent.height.NonnegOrLost := by
  have hscale : ∀ x ∈ Theme.Scales.plain.spacing.floats, 0 ≤ x := by decide +kernel
  have hc : Registry.Accepted tightPlate := accepted_plate _ _
  have hstyling : ∀ n, Style.numberUnder tightPlate.styling "gap" = some n → n.Nonneg :=
    styling_plate _ _ "gap"
  obtain ⟨x, hx, hgap, hsized⟩ : ∃ x ∈ panelGenerator.cells tightPlate ⟨[], []⟩,
      ¬gapBelowZero .plain {} (rootClasses tightPlate x.values) ∧
        Sized .default x.styles tightPlate.name :=
    ⟨plateCell "gap-y-px gap-[-100px]" "h-[10px]", mem_cells_plate _ _, by decide +kernel,
      by decide +kernel, by decide +kernel, by decide +kernel⟩
  obtain ⟨-, hwidth, hheight⟩ :=
    extents_nonneg .default defaultModes [] hscale hc hstyling ⟨[], []⟩ hx
  exact ⟨hscale, hc, hstyling, x, hx, hgap, hsized, hwidth hsized, (hheight hgap).2 hsized⟩

/-- A plate with a gap below zero. -/
def sunkPlate : Component := plate "gap-[-100px]" "h-[10px]"

/-- The gap takes more from the height than the elements have. -/
theorem height_negative_sunkPlate :
    (∀ x ∈ Theme.Scales.plain.floats, 0 ≤ x) ∧ Theme.Scales.plain.Finite ∧
      0 < ({} : Settings).rootFontSize ∧ (∀ n ∈ Constants.default.values, n.Nonneg) ∧
      Registry.Accepted sunkPlate ∧
      (∀ name n, Style.numberUnder sunkPlate.styling name = some n → n.Nonneg) ∧
      ∃ x ∈ panelGenerator.cells sunkPlate ⟨[], []⟩,
        x.extent.height = .float (-70) ∧ ¬x.extent.height.Nonneg := by
  have hheight : (plateCell "gap-[-100px]" "h-[10px]").extent.height = .float (-70) := by
    decide +kernel
  have hbelow : ¬(Number.float (-70)).Nonneg := by decide +kernel
  refine ⟨by decide +kernel, by decide +kernel, by decide +kernel, by decide +kernel,
    accepted_plate _ _, styling_plate _ _, _, mem_cells_plate _ _, hheight, ?_⟩
  rw [hheight]
  exact hbelow

end Matrix

end DesignTokens
