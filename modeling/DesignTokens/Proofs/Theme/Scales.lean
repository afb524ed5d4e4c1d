import DesignTokens.Proofs.Theme.Expected

/-!
What the scales of a build are made of. The tables of a framework have one entry for each key, read
from the token of that key, and the overrides of a project keep the names.
-/
namespace DesignTokens.Theme

variable {α : Type}

/-! ### Tables of tokens -/

theorem mem_of_tabulate {keys : List String} {f : String → Except Fault α} {t : Table α}
    (h : tabulate keys f = .ok t) {p : String × α} (hp : p ∈ t) :
    p.1 ∈ keys ∧ f p.1 = .ok p.2 := by
  obtain ⟨pairs, hpairs, h⟩ := bind_eq_ok h
  obtain rfl := Except.ok.inj h
  obtain ⟨key, hkey, hentry⟩ := exists_left_of_forall₂ (mapM_eq_ok hpairs)
    (Table.mem_of_mem_ofPairs hp)
  obtain ⟨v, hv, hentry⟩ := bind_eq_ok hentry
  obtain rfl := Except.ok.inj hentry
  exact ⟨hkey, hv⟩

theorem nodup_keys_of_tabulate {keys : List String} {f : String → Except Fault α} {t : Table α}
    (h : tabulate keys f = .ok t) : (Table.keys t).Nodup := by
  obtain ⟨pairs, -, h⟩ := bind_eq_ok h
  obtain rfl := Except.ok.inj h
  exact Table.nodup_keys_ofPairs pairs

theorem exists_of_tabulate {keys : List String} {f : String → Except Fault α} {t : Table α}
    (h : tabulate keys f = .ok t) {key : String} (hkey : key ∈ keys) :
    ∃ v, f key = .ok v ∧ Table.get? key t = some v := by
  have hall := h
  obtain ⟨pairs, hpairs, h⟩ := bind_eq_ok h
  obtain rfl := Except.ok.inj h
  obtain ⟨p, hp, hentry⟩ := exists_right_of_forall₂ (mapM_eq_ok hpairs) hkey
  obtain ⟨v, -, hentry⟩ := bind_eq_ok hentry
  obtain rfl := Except.ok.inj hentry
  obtain ⟨w, hw⟩ := Option.isSome_iff_exists.mp (Table.isSome_get?_ofPairs hp)
  exact ⟨w, (mem_of_tabulate hall (Table.mem_of_get? hw)).2, hw⟩

theorem require_eq_ok {props : Table String} {source token : String} {shape : Shape}
    {parse : String → Option α} {v : α} (h : require props source token shape parse = .ok v) :
    (Table.get? token props).bind parse = some v := by
  rw [require] at h
  split at h
  · cases h
  · rename_i raw hraw
    split at h
    · rename_i w hw
      rw [hraw, Option.bind_some, hw, Except.ok.inj h]
    · cases h

theorem spacingStep_eq_ok {basePx : Float} {key : String} {v : Float}
    (h : spacingStep basePx key = .ok v) :
    (if key = "px" then some 1
      else (Decimal.readFloat? key).map fun k => Decimal.roundPlaces (k * basePx) 3) = some v := by
  rw [spacingStep] at h
  split at h
  · rename_i hpx
    rw [if_pos (by simpa using hpx), Except.ok.inj h]
  · rename_i hpx
    rw [if_neg (by simpa using hpx)]
    split at h
    · rename_i k hk
      rw [hk, Option.map_some, Except.ok.inj h]
    · cases h

/-- A spacing scale is made of the base unit and of the steps that it leads to. -/
theorem parseSpacing_eq_ok {props : Table String} {keys : List String} {source variableName : String}
    {root : Float} {s : SpacingScale}
    (h : parseSpacing props keys source variableName root = .ok s) : ∃ px scale,
      (Table.get? variableName props).bind (Css.parseLength · root) = some px ∧
        tabulate keys (spacingStep px) = .ok scale ∧
        s = ⟨px, Decimal.roundPlaces (px / root) 6, scale⟩ := by
  obtain ⟨px, hpx, h⟩ := bind_eq_ok h
  obtain ⟨scale, hscale, h⟩ := bind_eq_ok h
  split at h
  · cases h
  · exact ⟨px, scale, require_eq_ok hpx, hscale, (Except.ok.inj h).symm⟩

/-! ### Overrides -/

theorem keys_override (props : Table String) (lead : String) (parse : String → String → Option α)
    (defaults : Table α) :
    Table.keys (override props lead parse defaults) = Table.keys defaults := by
  simp [Table.keys, override, Function.comp_def]

/-- After overrides a value is the one that was there, or one that was read. -/
theorem forall_mem_override (props : Table String) (lead : String)
    {parse : String → String → Option α} {defaults : Table α} {P : String → α → Prop}
    (h : ∀ p ∈ defaults, P p.1 p.2) (hparse : ∀ key raw v, parse key raw = some v → P key v) :
    ∀ p ∈ override props lead parse defaults, P p.1 p.2 := by
  intro p hp
  obtain ⟨⟨key, v⟩, hv, rfl⟩ := List.mem_map.mp hp
  cases hread : (Table.get? (lead ++ key) props).bind (parse key) with
  | none => simpa [hread] using h _ hv
  | some w =>
    obtain ⟨raw, -, hraw⟩ := Option.bind_eq_some_iff.mp hread
    simpa [hread] using hparse key raw w hraw

/-! ### Builds that succeed -/

variable {spec : Spec} {props : Table String} {source : String}

/-- The scales of a framework, family by family. -/
structure Spec.Yields (spec : Spec) (props : Table String) (source : String) (s : Scales) :
    Prop where
  spacing : parseSpacing props spec.spacingKeys source spec.spacingVariable spec.rootFontSize =
    .ok s.spacing
  borderRadius : ∃ declared, parseLengths props spec.radiusKeys source spec.radiusLead
    spec.rootFontSize = .ok declared ∧ s.borderRadius = spec.allRadii declared
  fontSize : parseLengths props spec.fontSizeKeys source spec.fontSizeLead spec.rootFontSize =
    .ok s.fontSize
  fontWeight : parseWeights props spec.fontWeightKeys source spec.fontWeightLead = .ok s.fontWeight
  shadows : parseShadows props spec.shadowKeys source spec.shadowLead spec.rootFontSize =
    .ok s.shadows

theorem yields_of_framework {s : Scales} (h : spec.framework props source = .ok s) :
    spec.Yields props source s := by
  obtain ⟨spacing, hspacing, h⟩ := bind_eq_ok h
  obtain ⟨radii, hradii, h⟩ := bind_eq_ok h
  obtain ⟨fontSize, hfontSize, h⟩ := bind_eq_ok h
  obtain ⟨fontWeight, hfontWeight, h⟩ := bind_eq_ok h
  obtain ⟨shadows, hshadows, h⟩ := bind_eq_ok h
  obtain rfl := Except.ok.inj h
  exact ⟨hspacing, ⟨radii, hradii, rfl⟩, hfontSize, hfontWeight, hshadows⟩

/-- Only what can be met builds. -/
theorem Spec.Yields.sound {s : Scales} (h : spec.Yields props source s) : spec.Sound := by
  obtain ⟨px, -, hrest⟩ := bind_eq_ok h.spacing
  obtain ⟨scale, hscale, hroot⟩ := bind_eq_ok hrest
  constructor
  · intro key hkey
    obtain ⟨step, hstep, -⟩ := exists_of_tabulate hscale hkey
    have hstep := spacingStep_eq_ok hstep
    split at hstep
    · exact .inl ‹_›
    · obtain ⟨k, hk, -⟩ := Option.map_eq_some_iff.mp hstep
      exact .inr (by simp [hk])
  · split at hroot
    · cases hroot
    · rename_i hzero
      simpa using hzero

theorem nodup_keys_allRadii (hfixed : (Table.keys spec.fixedRadii).Nodup) (declared : Table Float) :
    (Table.keys (spec.allRadii declared)).Nodup := by
  have hradii := Table.nodup_keys_foldl_put declared hfixed
  rw [Spec.allRadii]
  split
  · exact Table.nodup_keys_put _ _ hradii
  · exact hradii

/-- The scales after overrides, family by family. -/
theorem computed_eq_ok {base c : Scales} (h : spec.computed base props source = .ok c) :
    ∃ spacing, spec.overrideSpacing props source base.spacing = .ok spacing ∧
      c = { spacing
            borderRadius := spec.overrideRadii props base.borderRadius
            fontSize := override props spec.fontSizeLead
              (fun _ raw => Css.parseLength raw spec.rootFontSize) base.fontSize
            fontWeight := override props spec.fontWeightLead (fun _ raw => Css.parseWeight raw)
              base.fontWeight
            shadows := override props spec.shadowLead
              (fun key raw => Css.parseShadow key raw spec.rootFontSize) base.shadows } := by
  obtain ⟨spacing, hspacing, h⟩ := bind_eq_ok h
  exact ⟨spacing, hspacing, (Except.ok.inj h).symm⟩

/-- A snapshot has the scales of its framework, and either those or overridden ones. -/
theorem build_eq_ok {framework frameworkSource projectSource : String} {project : Option String}
    {s : Snapshot} (h : spec.build framework project frameworkSource projectSource = .ok s) :
    spec.framework (Css.customProperties framework) frameworkSource = .ok s.framework ∧
      (s.computed = s.framework ∨ ∃ css, spec.computed s.framework (Css.customProperties css)
        projectSource = .ok s.computed) := by
  obtain ⟨base, hbase, h⟩ := bind_eq_ok h
  split at h
  · obtain rfl := Except.ok.inj h
    exact ⟨hbase, .inl rfl⟩
  · rename_i css _
    obtain ⟨scales, hscales, h⟩ := bind_eq_ok h
    obtain rfl := Except.ok.inj h
    exact ⟨hbase, .inr ⟨css, hscales⟩⟩

/-- A framework for the specification with one token of each family. -/
def briefSheet : String :=
  "--spacing: 4px; --radius-sm: 2px; --text-xs: 0.75rem; --font-weight-thin: 100; " ++
    "--shadow-xs: 0 1px 2px 0 rgb(0 0 0 / 0.05), inset 0 -1px #0001;"

/-- The sheet builds whatever the project says. -/
theorem exists_build_brief (project : Option String) :
    ∃ s, Spec.brief.build briefSheet project "framework" "project" = .ok s := by
  have hbase : failure? (Spec.brief.build briefSheet none "framework" "project") = none := by
    decide +kernel
  rw [failure?_build sound_brief] at hbase
  exact failure?_eq_none_iff.mp ((failure?_build sound_brief _ project _ _).trans hbase)

end DesignTokens.Theme
