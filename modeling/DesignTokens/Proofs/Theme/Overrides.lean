import DesignTokens.Proofs.Theme.Scales

/-!
Overrides. A project's last declaration of a token replaces the framework's value where it can be
read. No key is added or lost, the spacing is derived as a whole, and declarations of other names
change nothing.
-/
namespace DesignTokens.Theme

variable {α : Type} {spec : Spec} {props : Table String} {source : String}

/-- The spacing that a base unit leads to: a step of one pixel, and multiples of the unit. -/
structure Spec.Derives (spec : Spec) (px : Float) (s : SpacingScale) : Prop where
  basePx : s.baseUnitPx = px
  baseRem : s.baseUnitRem = Decimal.roundPlaces (px / spec.rootFontSize) 6
  step : ∀ key, Table.get? key s.scale =
    if key ∈ spec.spacingKeys then
      if key = "px" then some 1
      else (Decimal.readFloat? key).map fun k => Decimal.roundPlaces (k * px) 3
    else none

/-- The value of a token: what its declaration is read as, or else the framework's value. -/
def layered (declared : String → Option String) (parse : String → Option α) (token : String)
    (value : α) : α :=
  ((declared token).bind parse).getD value

/-- How the computed scales follow from the framework's and a project's declarations. -/
structure Spec.Layers (spec : Spec) (declared : String → Option String) (base computed : Scales) :
    Prop where
  spacing : match (declared spec.spacingVariable).bind (Css.parseLength · spec.rootFontSize) with
    | some px => spec.Derives px computed.spacing
    | none => computed.spacing = base.spacing
  borderRadius : ∀ key, key ≠ "DEFAULT" → Table.get? key computed.borderRadius =
    (Table.get? key base.borderRadius).map
      (layered declared (Css.parseLength · spec.rootFontSize) (spec.radiusLead ++ key))
  fontSize : ∀ key, Table.get? key computed.fontSize =
    (Table.get? key base.fontSize).map
      (layered declared (Css.parseLength · spec.rootFontSize) (spec.fontSizeLead ++ key))
  fontWeight : ∀ key, Table.get? key computed.fontWeight =
    (Table.get? key base.fontWeight).map
      (layered declared Css.parseWeight (spec.fontWeightLead ++ key))
  shadows : ∀ key, Table.get? key computed.shadows =
    (Table.get? key base.shadows).map
      (layered declared (Css.parseShadow key · spec.rootFontSize) (spec.shadowLead ++ key))

/-- Whether the default radius stands for another radius, so that it has no token of its own. -/
def Spec.DefaultFollows (spec : Spec) (base : Scales) : Prop :=
  spec.defaultRadiusKey ≠ "DEFAULT" ∧ spec.defaultRadiusKey ∈ Table.keys base.borderRadius

/-- The properties with which a project can override the scales of a framework. -/
inductive Spec.IsOverridable (spec : Spec) (base : Scales) : String → Prop where
  | spacing : spec.IsOverridable base spec.spacingVariable
  | radius {key : String} (h : key ∈ Table.keys base.borderRadius)
      (hdefault : key = "DEFAULT" → ¬spec.DefaultFollows base) :
      spec.IsOverridable base (spec.radiusLead ++ key)
  | fontSize {key : String} (h : key ∈ Table.keys base.fontSize) :
      spec.IsOverridable base (spec.fontSizeLead ++ key)
  | fontWeight {key : String} (h : key ∈ Table.keys base.fontWeight) :
      spec.IsOverridable base (spec.fontWeightLead ++ key)
  | shadow {key : String} (h : key ∈ Table.keys base.shadows) :
      spec.IsOverridable base (spec.shadowLead ++ key)

/-! ### One family -/

theorem layered_congr {declared other : String → Option String} {token : String}
    (h : other token = declared token) (parse : String → Option α) :
    layered other parse token = layered declared parse token := by
  funext v
  rw [layered, layered, h]

theorem get?_override (props : Table String) (lead : String) (parse : String → String → Option α)
    (defaults : Table α) (key : String) :
    Table.get? key (override props lead parse defaults) =
      (Table.get? key defaults).map
        (layered (Table.get? · props) (parse key) (lead ++ key)) := by
  induction defaults with
  | nil => rfl
  | cons p defaults ih =>
    obtain ⟨k, v⟩ := p
    rw [override, List.map_cons, Table.get?_cons, Table.get?_cons]
    split
    · rename_i hk
      obtain rfl : k = key := by simpa using hk
      rfl
    · exact ih

/-- Only the tokens of the keys that are there are looked up. -/
theorem override_congr {props other : Table String} {lead : String}
    {parse : String → String → Option α} {defaults : Table α}
    (h : ∀ key ∈ Table.keys defaults,
      Table.get? (lead ++ key) other = Table.get? (lead ++ key) props) :
    override other lead parse defaults = override props lead parse defaults := by
  refine List.map_congr_left ?_
  rintro ⟨key, v⟩ hp
  dsimp only
  rw [h key (List.mem_map_of_mem hp)]

/-! ### The spacing -/

theorem derives_of_parseSpacing {s : SpacingScale}
    (h : parseSpacing props spec.spacingKeys source spec.spacingVariable spec.rootFontSize = .ok s) :
    ∃ px, (Table.get? spec.spacingVariable props).bind (Css.parseLength · spec.rootFontSize) =
      some px ∧ spec.Derives px s := by
  obtain ⟨px, scale, hpx, hscale, rfl⟩ := parseSpacing_eq_ok h
  refine ⟨px, hpx, rfl, rfl, ?_⟩
  intro key
  split
  · rename_i hkey
    obtain ⟨v, hv, hget⟩ := exists_of_tabulate hscale hkey
    rw [hget, spacingStep_eq_ok hv]
  · rename_i hkey
    rw [Option.eq_none_iff_forall_ne_some]
    intro v hv
    exact hkey (mem_of_tabulate hscale (Table.mem_of_get? hv)).1

theorem overrideSpacing_eq_ok {base s : SpacingScale}
    (h : spec.overrideSpacing props source base = .ok s) :
    match (Table.get? spec.spacingVariable props).bind (Css.parseLength · spec.rootFontSize) with
    | some px => spec.Derives px s
    | none => s = base := by
  rw [Spec.overrideSpacing] at h
  split at h
  · rename_i hnone
    rw [hnone]
    exact (Except.ok.inj h).symm
  · rename_i raw hraw
    split at h
    · rename_i hnone
      rw [hraw, Option.bind_some, hnone]
      exact (Except.ok.inj h).symm
    · obtain ⟨px, hpx, hderives⟩ := derives_of_parseSpacing h
      rw [hpx]
      exact hderives

/-- Of all declarations only that of the base unit counts. -/
theorem overrideSpacing_congr {other : Table String} {base : SpacingScale}
    (h : Table.get? spec.spacingVariable other = Table.get? spec.spacingVariable props) :
    spec.overrideSpacing other source base = spec.overrideSpacing props source base := by
  simp only [Spec.overrideSpacing, parseSpacing, require, h]

/-! ### The radii -/

theorem get?_overrideRadii_of_ne {key : String} (hkey : key ≠ "DEFAULT") (radii : Table Float) :
    Table.get? key (spec.overrideRadii props radii) = (Table.get? key radii).map
      (layered (Table.get? · props) (Css.parseLength · spec.rootFontSize)
        (spec.radiusLead ++ key)) := by
  rw [Spec.overrideRadii]
  split
  · rw [Table.get?_put_of_ne hkey, get?_override]
  · rw [get?_override]

/-- The token of the default radius does not count where that one stands for another radius. -/
theorem overrideRadii_congr {base : Scales} {other : Table String}
    (hnodup : (Table.keys base.borderRadius).Nodup)
    (h : ∀ key ∈ Table.keys base.borderRadius, (key = "DEFAULT" → ¬spec.DefaultFollows base) →
      Table.get? (spec.radiusLead ++ key) other = Table.get? (spec.radiusLead ++ key) props) :
    spec.overrideRadii other base.borderRadius = spec.overrideRadii props base.borderRadius := by
  rw [Spec.overrideRadii, Spec.overrideRadii]
  by_cases hfollows : spec.DefaultFollows base
  · obtain ⟨hne, hmem⟩ := hfollows
    have hagree : ∀ key, key ≠ "DEFAULT" →
        Table.get? key (override other spec.radiusLead
          (fun _ raw => Css.parseLength raw spec.rootFontSize) base.borderRadius) =
        Table.get? key (override props spec.radiusLead
          (fun _ raw => Css.parseLength raw spec.rootFontSize) base.borderRadius) := by
      intro key hkey
      rw [get?_override, get?_override]
      by_cases hin : key ∈ Table.keys base.borderRadius
      · have hlayered : layered (Table.get? · other) (Css.parseLength · spec.rootFontSize)
            (spec.radiusLead ++ key) = layered (Table.get? · props)
              (Css.parseLength · spec.rootFontSize) (spec.radiusLead ++ key) :=
          layered_congr (h key hin fun e => absurd e hkey) _
        rw [hlayered]
      · rw [Table.get?_eq_none_iff.mpr hin]
        rfl
    have hdefault := hagree _ hne
    obtain ⟨px, hpx⟩ : ∃ px, Table.get? spec.defaultRadiusKey (override props spec.radiusLead
        (fun _ raw => Css.parseLength raw spec.rootFontSize) base.borderRadius) = some px := by
      rw [← Option.isSome_iff_exists, Option.isSome_iff_ne_none, Ne, Table.get?_eq_none_iff,
        keys_override]
      exact not_not_intro hmem
    simp only [hdefault, hpx]
    refine Table.put_congr ?_ ?_ hagree px
    · rw [keys_override, keys_override]
    · rw [keys_override]
      exact hnodup
  · rw [override_congr fun key hkey => h key hkey fun _ => hfollows]

/-! ### Builds -/

theorem layers_of_computed {base computed : Scales}
    (h : spec.computed base props source = .ok computed) :
    spec.Layers (Table.get? · props) base computed := by
  obtain ⟨spacing, hspacing, rfl⟩ := computed_eq_ok h
  constructor
  · exact overrideSpacing_eq_ok hspacing
  · intro key hkey
    exact get?_overrideRadii_of_ne hkey base.borderRadius
  all_goals
    intro key
    dsimp only
    rw [get?_override]

/-- Declarations that override nothing do not matter. -/
theorem computed_congr {base : Scales} {other : Table String}
    (hnodup : (Table.keys base.borderRadius).Nodup)
    (h : ∀ name, spec.IsOverridable base name → Table.get? name other = Table.get? name props) :
    spec.computed base other source = spec.computed base props source := by
  have hspacing : spec.overrideSpacing other source base.spacing =
      spec.overrideSpacing props source base.spacing :=
    overrideSpacing_congr (h _ .spacing)
  have hradii := overrideRadii_congr hnodup fun _ hkey hdefault => h _ (.radius hkey hdefault)
  rw [Spec.computed, Spec.computed, hspacing, hradii,
    override_congr fun _ hkey => h _ (.fontSize hkey),
    override_congr fun _ hkey => h _ (.fontWeight hkey),
    override_congr fun _ hkey => h _ (.shadow hkey)]

/-- The snapshot of a project is the framework's scales and the computed ones. -/
theorem build_some {framework frameworkSource projectSource project : String} {base c : Scales}
    (hproject : project ≠ "")
    (hbase : spec.framework (Css.customProperties framework) frameworkSource = .ok base)
    (hcomputed : spec.computed base (Css.customProperties project) projectSource = .ok c) :
    spec.build framework (some project) frameworkSource projectSource =
      .ok ⟨base, c, [.str frameworkSource, .str projectSource]⟩ := by
  have hfilter : (some project).filter (· != "") = some project := by simp [hproject]
  rw [Spec.build, hbase, hfilter]
  simp only [hcomputed, bind, Except.bind, pure, Except.pure]

/-- A project layers its declarations over the framework that builds without it: each scale keeps
its keys, and a value is what the last declaration of its token is read as, or else the framework's.
The spacing is derived anew from a base unit that can be read. Projects that declare the overridable
properties alike lead to the same snapshot. -/
theorem build_layers {framework frameworkSource projectSource : String} {s : Snapshot}
    (hfixed : (Table.keys spec.fixedRadii).Nodup)
    (hbuild : spec.build framework none frameworkSource projectSource = .ok s)
    {project : String} (hproject : project ≠ "") :
    ∃ c, spec.build framework (some project) frameworkSource projectSource = .ok c ∧
      c.framework = s.framework ∧
      spec.Layers (Css.declared? project) s.framework c.computed ∧
      ∀ other, other ≠ "" →
        (∀ name, spec.IsOverridable s.framework name →
          Css.declared? other name = Css.declared? project name) →
        spec.build framework (some other) frameworkSource projectSource = .ok c := by
  obtain ⟨hbase, -⟩ := build_eq_ok hbuild
  have hyields := yields_of_framework hbase
  have hnodup : (Table.keys s.framework.borderRadius).Nodup := by
    obtain ⟨declared, -, hradii⟩ := hyields.borderRadius
    rw [hradii]
    exact nodup_keys_allRadii hfixed declared
  have hdeclared : ∀ css, (Table.get? · (Css.customProperties css)) = Css.declared? css :=
    fun css => funext fun name => Css.get?_customProperties css name
  have hnone : failure? (spec.computed s.framework (Css.customProperties project) projectSource) =
      none :=
    failure?_computed hyields.sound s.framework
  obtain ⟨computed, hcomputed⟩ := failure?_eq_none_iff.mp hnone
  refine ⟨_, build_some hproject hbase hcomputed, rfl, ?_, ?_⟩
  · have hlayers := layers_of_computed hcomputed
    rw [hdeclared] at hlayers
    exact hlayers
  · intro other hother hagree
    refine build_some hother hbase ?_
    rw [← hcomputed]
    refine computed_congr hnodup ?_
    intro name hname
    rw [Css.get?_customProperties, Css.get?_customProperties, hagree name hname]

/-- The last radius that the project declares counts, and its colours do not matter. -/
theorem build_layers_brief :
    (Table.keys Spec.brief.fixedRadii).Nodup ∧
      "--radius-sm: 5px; --radius-sm: 0.5rem; --text-color-ink: red;" ≠ "" ∧
      ∃ s c, Spec.brief.build briefSheet none "framework" "project" = .ok s ∧
        Spec.brief.build briefSheet
          (some "--radius-sm: 5px; --radius-sm: 0.5rem; --text-color-ink: red;")
          "framework" "project" = .ok c ∧
        Table.get? "sm" s.framework.borderRadius = some 2 ∧
        Table.get? "sm" c.computed.borderRadius = some 8 := by
  have hfixed : (Table.keys Spec.brief.fixedRadii).Nodup := by decide
  have hproject : "--radius-sm: 5px; --radius-sm: 0.5rem; --text-color-ink: red;" ≠ "" := by decide
  obtain ⟨s, hs⟩ := exists_build_brief none
  obtain ⟨c, hc, -, hlayers, -⟩ := build_layers hfixed hs hproject
  have hbase : Table.get? "sm" s.framework.borderRadius = some 2 := by
    have heval : ((Spec.brief.build briefSheet none "framework" "project").toOption.bind
        fun s => Table.get? "sm" s.framework.borderRadius) = some 2 := by decide +kernel
    rw [hs] at heval
    exact heval
  have hradius := hlayers.borderRadius "sm" (by decide)
  have hlast : layered (Css.declared?
      "--radius-sm: 5px; --radius-sm: 0.5rem; --text-color-ink: red;")
      (Css.parseLength · Spec.brief.rootFontSize) (Spec.brief.radiusLead ++ "sm") 2 = 8 := by
    decide +kernel
  rw [hbase, Option.map_some, hlast] at hradius
  exact ⟨hfixed, hproject, s, c, hs, hc, hbase, hradius⟩

end DesignTokens.Theme
