import DesignTokens.Proofs.Decimal.Places
import DesignTokens.Proofs.Theme.RoundTrip

/-!
What the scales of all builds have in common: numbers of at most six decimal places, weights within
their range, distinct names, and shadows that are named as their keys and have texts as colours.
-/
namespace DesignTokens

open Decimal (roundPlaces)

/-- A number that rounding to six places leaves alone. -/
def Settled (x : Float) : Prop := roundPlaces x 6 = x

theorem settled_roundPlaces (x : Float) {places : Nat} (h : places ≤ 6) :
    Settled (roundPlaces x places) :=
  Decimal.roundPlaces_roundPlaces x h (by decide)

theorem settled_zero : Settled 0 := by
  unfold Settled
  decide +kernel

theorem settled_one : Settled 1 := by
  unfold Settled
  decide +kernel

/-! ### The numbers of style sheets -/

namespace Css

theorem settled_of_inUnit {unit : String} {number root x : Float}
    (h : inUnit unit number root = some x) : Settled x := by
  rw [inUnit] at h
  split at h
  · obtain rfl := Option.some.inj h
    exact settled_roundPlaces _ (by decide)
  · split at h
    · obtain rfl := Option.some.inj h
      exact settled_roundPlaces _ (by decide)
    · cases h

theorem settled_of_parseLength {raw : String} {root x : Float} (h : parseLength raw root = some x) :
    Settled x := by
  rw [parseLength.eq_def] at h
  dsimp only at h
  split at h
  all_goals
    split at h
    · cases h
    · obtain ⟨number, -, hunit⟩ := Option.bind_eq_some_iff.mp h
      exact settled_of_inUnit hunit

theorem settled_of_value {a : Alpha} {x : Float} (h : a.value = .ok x) : Settled x := by
  rw [Alpha.value] at h
  split at h
  · obtain rfl := Except.ok.inj h
    exact settled_roundPlaces _ (by decide)
  · cases h

theorem settled_of_colorOpacity {color : String} {x : Float} (h : colorOpacity color = .ok x) :
    Settled x := by
  rw [colorOpacity] at h
  split at h
  · exact settled_of_value h
  · split at h
    · exact settled_of_value h
    · rw [plainOpacity] at h
      split at h
      · rw [hexOpacity] at h
        split at h
        · obtain rfl := Except.ok.inj h
          exact settled_roundPlaces _ (by decide)
        · cases h
      · split at h
        · obtain rfl := Except.ok.inj h
          exact settled_zero
        · obtain rfl := Except.ok.inj h
          exact settled_one

/-- The lengths of a layer are those that are read from its words. -/
theorem settled_lengths (root : Float) (parts : List String) {p : LayerParts}
    (h : ∀ x ∈ p.lengths, Settled x) :
    ∀ x ∈ (parts.foldl (LayerParts.add root) p).lengths, Settled x := by
  induction parts generalizing p with
  | nil => exact h
  | cons part parts ih =>
    refine ih fun x hx => ?_
    rw [LayerParts.add] at hx
    split at hx
    · exact h x hx
    · split at hx
      · rename_i px hpx
        split at hx
        · rcases List.mem_append.mp hx with hx | hx
          · exact h x hx
          · obtain rfl := List.mem_singleton.mp hx
            exact settled_of_parseLength hpx
        · exact h x hx
      · exact h x hx

end Css

/-! ### All numbers of a snapshot -/

def ShadowLayer.floats (l : ShadowLayer) : List Float :=
  [l.offsetX, l.offsetY, l.blur, l.spread, l.opacity]

namespace Theme

def SpacingScale.floats (s : SpacingScale) : List Float :=
  s.baseUnitPx :: s.baseUnitRem :: Table.values s.scale

def Scales.floats (s : Scales) : List Float :=
  s.spacing.floats ++ Table.values s.borderRadius ++ Table.values s.fontSize ++
    (Table.values s.shadows).flatMap fun p => p.layers.flatMap ShadowLayer.floats

/-- Scales without infinities and NaNs. -/
def Scales.Finite (s : Scales) : Prop := ∀ x ∈ s.floats, Decimal.isFinite x

instance (s : Scales) : Decidable s.Finite :=
  inferInstanceAs (Decidable (∀ x ∈ s.floats, Decimal.isFinite x))

/-- What the scales of a build have in common. -/
structure Scales.Regular (s : Scales) : Prop where
  settled : ∀ x ∈ s.floats, Settled x
  scale : (Table.keys s.spacing.scale).Nodup
  borderRadius : (Table.keys s.borderRadius).Nodup
  fontSize : (Table.keys s.fontSize).Nodup
  fontWeight : (Table.keys s.fontWeight).Nodup
  shadows : (Table.keys s.shadows).Nodup
  weights : ∀ p ∈ s.fontWeight, 1 ≤ p.2 ∧ p.2 ≤ 1000
  named : s.NamesShadows
  colors : ∀ p ∈ s.shadows, ∀ l ∈ p.2.layers, ∃ text, l.color = .str text

/-- A property of all numbers, family by family. -/
theorem Scales.forall_mem_floats {P : Float → Prop} {s : Scales} : (∀ x ∈ s.floats, P x) ↔
    (∀ x ∈ s.spacing.floats, P x) ∧ (∀ p ∈ s.borderRadius, P p.2) ∧ (∀ p ∈ s.fontSize, P p.2) ∧
      ∀ p ∈ s.shadows, ∀ l ∈ p.2.layers, ∀ x ∈ l.floats, P x := by
  have hflat {α : Type} (xs : List α) (f : α → List Float) :
      (∀ x ∈ xs.flatMap f, P x) ↔ ∀ a ∈ xs, ∀ x ∈ f a, P x := by
    simp only [List.mem_flatMap, forall_exists_index, and_imp]
    exact forall_comm.trans (forall_congr' fun _ => forall_comm)
  simp only [floats, Table.values, List.forall_mem_append, List.forall_mem_map, hflat, and_assoc]

theorem SpacingScale.forall_mem_floats {P : Float → Prop} {s : SpacingScale} :
    (∀ x ∈ s.floats, P x) ↔ P s.baseUnitPx ∧ P s.baseUnitRem ∧ ∀ p ∈ s.scale, P p.2 := by
  simp only [floats, Table.values, List.forall_mem_cons, List.forall_mem_map]

/-! ### Shadows -/

/-- What a layer of a shadow has when it is read from a style sheet. -/
def RegularLayer (l : ShadowLayer) : Prop :=
  (∀ x ∈ l.floats, Settled x) ∧ ∃ text, l.color = .str text

theorem regularLayer_of_parseLayer {value : String} {root : Float} {l : ShadowLayer}
    (h : Css.parseLayer value root = some l) : RegularLayer l := by
  have hlengths := Css.settled_lengths root (Css.splitParts value) (p := {}) (by simp)
  rw [Css.parseLayer] at h
  generalize (Css.splitParts value).foldl (Css.LayerParts.add root) {} = parts at h hlengths
  split at h
  · rename_i x y more hparts
    obtain ⟨opacity, hopacity, h⟩ := Option.bind_eq_some_iff.mp h
    obtain rfl := Option.some.inj h
    rw [hparts] at hlengths
    have hmore (i : Nat) : Settled (more.getD i 0) := by
      rw [List.getD_eq_getElem?_getD]
      cases hi : more[i]? with
      | none => exact settled_zero
      | some z =>
        have hz := List.mem_of_getElem? hi
        exact hlengths z (List.mem_cons_of_mem _ (List.mem_cons_of_mem _ hz))
    have hsettled : Settled opacity := by
      cases hcolor : Css.colorOpacity parts.color with
      | error fault =>
        rw [hcolor] at hopacity
        cases hopacity
      | ok a =>
        rw [hcolor] at hopacity
        obtain rfl := Option.some.inj hopacity
        exact Css.settled_of_colorOpacity hcolor
    refine ⟨?_, parts.color, rfl⟩
    simp only [ShadowLayer.floats, List.forall_mem_cons, List.not_mem_nil, false_implies,
      implies_true, and_true]
    exact ⟨hlengths x (by simp), hlengths y (by simp), hmore 0, hmore 1, hsettled⟩
  · cases h

theorem regularLayer_of_parseShadow {key raw : String} {root : Float} {p : ShadowPreset}
    (h : Css.parseShadow key raw root = some p) : ∀ l ∈ p.layers, RegularLayer l := by
  intro l hl
  obtain ⟨value, -, hvalue⟩ := exists_left_of_forall₂ (Css.layers_of_parseShadow h).2 hl
  exact regularLayer_of_parseLayer hvalue

theorem range_of_parseWeight {raw : String} {w : Int} (h : Css.parseWeight raw = some w) :
    1 ≤ w ∧ w ≤ 1000 := by
  rw [Css.parseWeight, Option.bind_eq_bind, Option.bind_eq_some_iff] at h
  obtain ⟨n, -, h⟩ := h
  split at h
  · rename_i hrange
    obtain rfl := Option.some.inj h
    simpa using hrange
  · cases h

/-! ### Frameworks -/

variable {spec : Spec} {props : Table String} {source : String}

theorem settled_of_parseSpacing {keys : List String} {variableName : String} {root : Float}
    {s : SpacingScale} (h : parseSpacing props keys source variableName root = .ok s) :
    (∀ x ∈ s.floats, Settled x) ∧ (Table.keys s.scale).Nodup := by
  obtain ⟨px, scale, hpx, hscale, rfl⟩ := parseSpacing_eq_ok h
  obtain ⟨raw, -, hraw⟩ := Option.bind_eq_some_iff.mp hpx
  refine ⟨SpacingScale.forall_mem_floats.mpr ⟨Css.settled_of_parseLength hraw,
    settled_roundPlaces _ le_rfl, fun p hp => ?_⟩, nodup_keys_of_tabulate hscale⟩
  obtain ⟨-, hstep⟩ := mem_of_tabulate hscale hp
  have hvalue := spacingStep_eq_ok hstep
  split at hvalue
  · rw [← Option.some.inj hvalue]
    exact settled_one
  · obtain ⟨k, -, hk⟩ := Option.map_eq_some_iff.mp hvalue
    rw [← hk]
    exact settled_roundPlaces _ (by decide)

theorem settled_of_parseLengths {keys : List String} {lead : String} {root : Float}
    {t : Table Float} (h : parseLengths props keys source lead root = .ok t) :
    ∀ p ∈ t, Settled p.2 := by
  intro p hp
  obtain ⟨-, hlength⟩ := mem_of_tabulate h hp
  obtain ⟨raw, -, hraw⟩ := Option.bind_eq_some_iff.mp (require_eq_ok hlength)
  exact Css.settled_of_parseLength hraw

/-- The radii that a framework implies are regular, too. -/
structure Spec.FixedRegular (spec : Spec) : Prop where
  settled : ∀ p ∈ spec.fixedRadii, Settled p.2
  names : (Table.keys spec.fixedRadii).Nodup

theorem fixedRegular_default (h : spec.fixedRadii = ({} : Spec).fixedRadii) :
    spec.FixedRegular := by
  have hfull : Settled 9999 := by
    unfold Settled
    decide +kernel
  constructor
  · rw [h]
    exact List.forall_mem_cons.mpr ⟨settled_zero, List.forall_mem_singleton.mpr hfull⟩
  · rw [h]
    decide

theorem settled_allRadii (hfixed : spec.FixedRegular) {declared : Table Float}
    (h : ∀ p ∈ declared, Settled p.2) : ∀ p ∈ spec.allRadii declared, Settled p.2 := by
  have hradii : ∀ p ∈ declared.foldl (fun t p => Table.put p.1 p.2 t) spec.fixedRadii,
      Settled p.2 := by
    intro p hp
    rcases Table.mem_foldl_put hp with hp | hp
    · exact h p hp
    · exact hfixed.settled p hp
  intro p hp
  rw [Spec.allRadii] at hp
  split at hp
  · rename_i px hpx
    rcases Table.mem_put hp with rfl | hp
    · exact h (spec.defaultRadiusKey, px) (Table.mem_of_get? hpx)
    · exact hradii p hp
  · exact hradii p hp

theorem Spec.Yields.regular {s : Scales} (hfixed : spec.FixedRegular)
    (h : spec.Yields props source s) : s.Regular := by
  obtain ⟨hspacing, hscale⟩ := settled_of_parseSpacing h.spacing
  obtain ⟨declared, hdeclared, hradii⟩ := h.borderRadius
  have hlayers : ∀ p ∈ s.shadows, ∀ l ∈ p.2.layers, RegularLayer l := by
    intro p hp
    obtain ⟨-, hshadow⟩ := mem_of_tabulate h.shadows hp
    obtain ⟨raw, -, hraw⟩ := Option.bind_eq_some_iff.mp (require_eq_ok hshadow)
    exact regularLayer_of_parseShadow hraw
  exact {
    settled := Scales.forall_mem_floats.mpr ⟨hspacing,
      hradii ▸ settled_allRadii hfixed (settled_of_parseLengths hdeclared),
      settled_of_parseLengths h.fontSize, fun p hp l hl => (hlayers p hp l hl).1⟩
    scale := hscale
    borderRadius := hradii ▸ nodup_keys_allRadii hfixed.names declared
    fontSize := nodup_keys_of_tabulate h.fontSize
    fontWeight := nodup_keys_of_tabulate h.fontWeight
    shadows := nodup_keys_of_tabulate h.shadows
    weights := by
      intro p hp
      obtain ⟨-, hweight⟩ := mem_of_tabulate h.fontWeight hp
      obtain ⟨raw, -, hraw⟩ := Option.bind_eq_some_iff.mp (require_eq_ok hweight)
      exact range_of_parseWeight hraw
    named := h.namesShadows
    colors := fun p hp l hl => (hlayers p hp l hl).2
  }

/-! ### Computed scales -/

theorem settled_overrideRadii {radii : Table Float} (h : ∀ p ∈ radii, Settled p.2) :
    ∀ p ∈ spec.overrideRadii props radii, Settled p.2 := by
  have hread : ∀ (key raw : String) px, Css.parseLength raw spec.rootFontSize = some px →
      Settled px :=
    fun _ _ _ => Css.settled_of_parseLength
  have hradii := forall_mem_override props spec.radiusLead (P := fun _ px => Settled px) h hread
  intro p hp
  rw [Spec.overrideRadii] at hp
  split at hp
  · rename_i px hpx
    rcases Table.mem_put hp with rfl | hp
    · exact hradii (spec.defaultRadiusKey, px) (Table.mem_of_get? hpx)
    · exact hradii p hp
  · exact hradii p hp

theorem nodup_keys_overrideRadii {radii : Table Float} (h : (Table.keys radii).Nodup) :
    (Table.keys (spec.overrideRadii props radii)).Nodup := by
  have hradii := h
  rw [← keys_override props spec.radiusLead (fun _ raw => Css.parseLength raw spec.rootFontSize)]
    at hradii
  rw [Spec.overrideRadii]
  split
  · exact Table.nodup_keys_put _ _ hradii
  · exact hradii

theorem regular_of_computed {base c : Scales} (hbase : base.Regular)
    (h : spec.computed base props source = .ok c) : c.Regular := by
  obtain ⟨spacing, hspacing, rfl⟩ := computed_eq_ok h
  obtain ⟨hsettled, hradii, hsizes, hfloats⟩ := Scales.forall_mem_floats.mp hbase.settled
  have hunit : (∀ x ∈ spacing.floats, Settled x) ∧ (Table.keys spacing.scale).Nodup := by
    rw [Spec.overrideSpacing] at hspacing
    split at hspacing
    · obtain rfl := Except.ok.inj hspacing
      exact ⟨hsettled, hbase.scale⟩
    · split at hspacing
      · obtain rfl := Except.ok.inj hspacing
        exact ⟨hsettled, hbase.scale⟩
      · exact settled_of_parseSpacing hspacing
  have hlength : ∀ (key raw : String) px, Css.parseLength raw spec.rootFontSize = some px →
      Settled px :=
    fun _ _ _ => Css.settled_of_parseLength
  have hweight : ∀ (key raw : String) w, Css.parseWeight raw = some w → 1 ≤ w ∧ w ≤ 1000 :=
    fun _ _ _ => range_of_parseWeight
  have hshadow : ∀ key raw p, Css.parseShadow key raw spec.rootFontSize = some p →
      ∀ l ∈ p.layers, RegularLayer l :=
    fun _ _ _ => regularLayer_of_parseShadow
  have hlayers := forall_mem_override props spec.shadowLead
    (P := fun _ (p : ShadowPreset) => ∀ l ∈ p.layers, RegularLayer l)
    (fun p hp l hl => ⟨hfloats p hp l hl, hbase.colors p hp l hl⟩) hshadow
  exact {
    settled := Scales.forall_mem_floats.mpr ⟨hunit.1, settled_overrideRadii hradii,
      forall_mem_override props spec.fontSizeLead (P := fun _ px => Settled px) hsizes hlength,
      fun p hp l hl => (hlayers p hp l hl).1⟩
    scale := hunit.2
    borderRadius := nodup_keys_overrideRadii hbase.borderRadius
    fontSize := by
      rw [keys_override]
      exact hbase.fontSize
    fontWeight := by
      rw [keys_override]
      exact hbase.fontWeight
    shadows := by
      rw [keys_override]
      exact hbase.shadows
    weights := forall_mem_override props spec.fontWeightLead
      (P := fun _ (w : Int) => 1 ≤ w ∧ w ≤ 1000) hbase.weights hweight
    named := namesShadows_of_computed h hbase.named
    colors := fun p hp l hl => (hlayers p hp l hl).2
  }

/-- The scales of a build. -/
theorem regular_of_build (hfixed : spec.FixedRegular)
    {framework frameworkSource projectSource : String} {project : Option String} {s : Snapshot}
    (h : spec.build framework project frameworkSource projectSource = .ok s) :
    s.framework.Regular ∧ s.computed.Regular := by
  obtain ⟨hframework, hcomputed⟩ := build_eq_ok h
  have hbase := (yields_of_framework hframework).regular hfixed
  refine ⟨hbase, ?_⟩
  rcases hcomputed with hsame | ⟨css, hcss⟩
  · rw [hsame]
    exact hbase
  · exact regular_of_computed hbase hcss

end Theme

end DesignTokens
