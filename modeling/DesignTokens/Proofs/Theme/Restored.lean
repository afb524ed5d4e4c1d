import DesignTokens.Proofs.Theme.Overrides

/-!
Projects without overrides. A project that declares none of the properties it could override leaves
the framework's scales as they are, but for the default radius. The framework has one if the radius
it stands for is declared; a project adds one wherever that radius is found, among the fixed ones
too.
-/
namespace DesignTokens.Theme

variable {α : Type} {spec : Spec} {source : String}

/-- Whether the default radius is the one it stands for, where there is such a radius. -/
def Spec.DefaultAgrees (spec : Spec) (radii : Table Float) : Prop :=
  ∀ px, Table.get? spec.defaultRadiusKey radii = some px → Table.get? "DEFAULT" radii = some px

/-- The scales after no overrides: the default radius is set wherever the one it stands for is
found. -/
def Spec.defaulted (spec : Spec) (base : Scales) : Scales :=
  { base with borderRadius := spec.overrideRadii [] base.borderRadius }

/-! ### Nothing to override -/

theorem override_nil (lead : String) (parse : String → String → Option α) (defaults : Table α) :
    override [] lead parse defaults = defaults :=
  List.map_id defaults

/-- Without declarations only the default radius is set. -/
theorem computed_nil (base : Scales) : spec.computed base [] source = .ok (spec.defaulted base) := by
  simp only [Spec.computed, Spec.overrideSpacing, override_nil, Table.get?_nil, bind, Except.bind,
    pure, Except.pure, Spec.defaulted]

theorem overrideRadii_nil_of_agrees {radii : Table Float} (h : spec.DefaultAgrees radii) :
    spec.overrideRadii [] radii = radii := by
  rw [Spec.overrideRadii, override_nil]
  cases hkey : Table.get? spec.defaultRadiusKey radii with
  | none => rfl
  | some px => exact Table.put_of_get? (h px hkey)

/-- After overrides the default radius agrees, so that scales are kept only where it did before. -/
theorem defaulted_eq_iff {base : Scales} :
    spec.defaulted base = base ↔ spec.DefaultAgrees base.borderRadius := by
  constructor
  · intro heq px hpx
    have hradii : spec.overrideRadii [] base.borderRadius = base.borderRadius :=
      congrArg Scales.borderRadius heq
    rw [← hradii, Spec.overrideRadii, override_nil]
    simp only [hpx, Table.get?_put_self]
  · intro h
    rw [Spec.defaulted, overrideRadii_nil_of_agrees h]

/-! ### The default radius of a framework -/

variable {declared : Table Float}

theorem defaultAgrees_allRadii (hnodup : (Table.keys declared).Nodup)
    (hkey : spec.defaultRadiusKey ∈ Table.keys declared) :
    spec.DefaultAgrees (spec.allRadii declared) := by
  obtain ⟨px, hpx⟩ := Table.exists_get?_of_mem_keys hkey
  intro other hother
  rw [Spec.allRadii] at hother ⊢
  simp only [hpx, Table.get?_put_self] at hother ⊢
  by_cases hdefault : spec.defaultRadiusKey = "DEFAULT"
  · rw [hdefault, Table.get?_put_self] at hother
    exact hother
  · rw [Table.get?_put_of_ne hdefault,
      Table.get?_foldl_put_of_mem hnodup (Table.mem_of_get? hpx)] at hother
    exact hother

/-- A default radius that does not agree stands for a fixed radius that is not declared. -/
theorem fixed_of_not_agrees (hnodup : (Table.keys declared).Nodup)
    (h : ¬spec.DefaultAgrees (spec.allRadii declared)) :
    spec.defaultRadiusKey ∈ Table.keys spec.fixedRadii ∧
      spec.defaultRadiusKey ∉ Table.keys declared := by
  have hundeclared : spec.defaultRadiusKey ∉ Table.keys declared :=
    fun hkey => h (defaultAgrees_allRadii hnodup hkey)
  refine ⟨?_, hundeclared⟩
  by_contra hfixed
  refine h fun px hpx => ?_
  rw [Spec.allRadii, Table.get?_eq_none_iff.mpr hundeclared] at hpx
  have hmem : spec.defaultRadiusKey ∈
      Table.keys (declared.foldl (fun t p => Table.put p.1 p.2 t) spec.fixedRadii) :=
    List.mem_map_of_mem (Table.mem_of_get? hpx)
  rcases (Table.mem_keys_foldl_put declared spec.fixedRadii).mp hmem with hin | hin
  · exact absurd hin hundeclared
  · exact absurd hin hfixed

/-! ### Builds -/

/-- Without a project the computed scales are the framework's. -/
theorem build_none {framework frameworkSource projectSource : String} {base : Scales}
    (h : spec.framework (Css.customProperties framework) frameworkSource = .ok base) :
    spec.build framework none frameworkSource projectSource =
      .ok ⟨base, base, [.str frameworkSource]⟩ := by
  rw [Spec.build, h]
  rfl

/-- A project that declares nothing it could override builds, and the computed scales are the
framework's, the radii with a default one wherever the radius it stands for is found. All of them
are the framework's exactly if its default radius agrees already. It does unless it stands for a
fixed radius that is not declared. -/
theorem build_without_overrides {framework frameworkSource projectSource project : String}
    {s : Snapshot} (hfixed : (Table.keys spec.fixedRadii).Nodup)
    (hbuild : spec.build framework none frameworkSource projectSource = .ok s)
    (hproject : ∀ name, spec.IsOverridable s.framework name → Css.declared? project name = none) :
    s.computed = s.framework ∧
      ∃ c, spec.build framework (some project) frameworkSource projectSource = .ok c ∧
        c.framework = s.framework ∧
        c.computed = (if project = "" then s.framework else spec.defaulted s.framework) ∧
        (c.computed = s.framework ↔
          project = "" ∨ spec.DefaultAgrees s.framework.borderRadius) ∧
        (¬spec.DefaultAgrees s.framework.borderRadius →
          spec.defaultRadiusKey ∈ Table.keys spec.fixedRadii ∧
            spec.defaultRadiusKey ∉ spec.radiusKeys) := by
  obtain ⟨hbase, -⟩ := build_eq_ok hbuild
  have hs : s = ⟨s.framework, s.framework, [.str frameworkSource]⟩ :=
    Except.ok.inj (hbuild.symm.trans (build_none hbase))
  obtain ⟨declared, hdeclared, hradii⟩ := (yields_of_framework hbase).borderRadius
  have hnodup := nodup_keys_of_tabulate hdeclared
  have hagrees : ¬spec.DefaultAgrees s.framework.borderRadius →
      spec.defaultRadiusKey ∈ Table.keys spec.fixedRadii ∧
        spec.defaultRadiusKey ∉ spec.radiusKeys := by
    intro h
    rw [hradii] at h
    obtain ⟨hin, hout⟩ := fixed_of_not_agrees hnodup h
    refine ⟨hin, fun hkey => hout ?_⟩
    obtain ⟨px, -, hpx⟩ := exists_of_tabulate hdeclared hkey
    exact List.mem_map_of_mem (Table.mem_of_get? hpx)
  refine ⟨by rw [hs], ?_⟩
  by_cases hempty : project = ""
  · -- An empty project counts as none.
    refine ⟨s, ?_, rfl, ?_, ?_, hagrees⟩
    · rw [← hbuild, hempty]
      rfl
    · rw [if_pos hempty, hs]
    · exact ⟨fun _ => .inl hempty, fun _ => by rw [hs]⟩
  · have hcomputed : spec.computed s.framework (Css.customProperties project) projectSource =
        .ok (spec.defaulted s.framework) := by
      rw [← computed_nil]
      refine computed_congr ?_ ?_
      · rw [hradii]
        exact nodup_keys_allRadii hfixed declared
      · intro name hname
        rw [Css.get?_customProperties, hproject name hname, Table.get?_nil]
    refine ⟨_, build_some hempty hbase hcomputed, rfl, ?_, ?_, hagrees⟩
    · rw [if_neg hempty]
    · rw [or_iff_right hempty]
      exact defaulted_eq_iff

/-! ### Sheets without overrides -/

/-- Whether a sheet declares none of the tokens of the scales. -/
def Spec.Leaves (spec : Spec) (declared : String → Option String) (base : Scales) : Prop :=
  declared spec.spacingVariable = none ∧
    (∀ key ∈ Table.keys base.borderRadius, declared (spec.radiusLead ++ key) = none) ∧
    (∀ key ∈ Table.keys base.fontSize, declared (spec.fontSizeLead ++ key) = none) ∧
    (∀ key ∈ Table.keys base.fontWeight, declared (spec.fontWeightLead ++ key) = none) ∧
    ∀ key ∈ Table.keys base.shadows, declared (spec.shadowLead ++ key) = none

instance (declared : String → Option String) (base : Scales) :
    Decidable (spec.Leaves declared base) :=
  inferInstanceAs (Decidable (_ ∧ _))

theorem Spec.Leaves.undeclared {declared : String → Option String} {base : Scales}
    (h : spec.Leaves declared base) : ∀ name, spec.IsOverridable base name → declared name = none := by
  obtain ⟨hspacing, hradius, hfontSize, hfontWeight, hshadow⟩ := h
  intro name hname
  cases hname with
  | spacing => exact hspacing
  | radius hkey => exact hradius _ hkey
  | fontSize hkey => exact hfontSize _ hkey
  | fontWeight hkey => exact hfontWeight _ hkey
  | shadow hkey => exact hshadow _ hkey

/-- A colour, and a radius that the specification does not name. -/
def colorSheet : String := "--radius-md: 6px; --text-color-ink: red;"

/-- The colour and the unknown radius leave the scales with the default radius of the framework. -/
theorem build_without_overrides_brief :
    (Table.keys Spec.brief.fixedRadii).Nodup ∧
      ∃ s c, Spec.brief.build briefSheet none "framework" "project" = .ok s ∧
        (∀ name, Spec.brief.IsOverridable s.framework name →
          Css.declared? colorSheet name = none) ∧
        Spec.brief.build briefSheet (some colorSheet) "framework" "project" = .ok c ∧
        c.computed = s.framework ∧ Table.get? "DEFAULT" c.computed.borderRadius = some 2 := by
  have hfixed : (Table.keys Spec.brief.fixedRadii).Nodup := by decide
  obtain ⟨s, hs⟩ := exists_build_brief none
  have heval : (Spec.brief.build briefSheet none "framework" "project").toOption.all fun s =>
      Spec.brief.Leaves (Css.declared? colorSheet) s.framework ∧
        Table.get? "sm" s.framework.borderRadius = some 2 ∧
        Table.get? "DEFAULT" s.framework.borderRadius = some 2 := by decide +kernel
  rw [hs] at heval
  obtain ⟨hleaves, hsm, hdefault⟩ := of_decide_eq_true heval
  obtain ⟨-, c, hc, -, -, hiff, -⟩ := build_without_overrides hfixed hs hleaves.undeclared
  have hagrees : Spec.brief.DefaultAgrees s.framework.borderRadius := by
    intro px hpx
    rw [hdefault, ← hsm]
    exact hpx
  have hkept := hiff.mpr (.inr hagrees)
  exact ⟨hfixed, s, c, hs, hleaves.undeclared, hc, hkept, by rw [hkept, hdefault]⟩

/-- A specification whose default radius stands for one that need not be declared. -/
def Spec.sharp : Spec := { Spec.brief with defaultRadiusKey := "none" }

/-- The framework has no default radius, and a colour adds one. -/
theorem default_added_sharp :
    ∃ s c, Spec.sharp.build briefSheet none "framework" "project" = .ok s ∧
      (∀ name, Spec.sharp.IsOverridable s.framework name → Css.declared? colorSheet name = none) ∧
      Spec.sharp.build briefSheet (some colorSheet) "framework" "project" = .ok c ∧
      Table.get? "DEFAULT" s.computed.borderRadius = none ∧
      Table.get? "DEFAULT" c.computed.borderRadius = some 0 ∧ c.computed ≠ s.computed := by
  obtain ⟨c, hc, htest⟩ := exists_of_any_toOption
    (Spec.sharp.build briefSheet (some colorSheet) "framework" "project")
    (fun c => Spec.sharp.Leaves (Css.declared? colorSheet) c.framework ∧
      Table.get? "DEFAULT" c.framework.borderRadius = none ∧
      Table.get? "DEFAULT" c.computed.borderRadius = some 0) (by decide +kernel)
  obtain ⟨hleaves, hnone, hadded⟩ := of_decide_eq_true htest
  obtain ⟨hbase, -⟩ := build_eq_ok hc
  refine ⟨_, c, build_none hbase, hleaves.undeclared, hc, hnone, hadded, ?_⟩
  intro heq
  rw [heq, hnone] at hadded
  cases hadded

end DesignTokens.Theme
