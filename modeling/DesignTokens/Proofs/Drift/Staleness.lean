import DesignTokens.Drift.Sync
import DesignTokens.Proofs.Theme.Artifact
import DesignTokens.Proofs.Theme.Same

/-!
Staleness of theme data files. Rounding to six places leaves the numbers of a build alone, so what
the rule compares are the scales themselves, with floats for the weights; it reports a file unless
both sets of scales are equal.
-/
namespace DesignTokens.Drift

open Json (Mismatch)
open Theme

/-! ### Normal forms -/

theorem normalize_ofFloat {x : Float} (h : Settled x) :
    normalize (.ofFloat x) = .ok (.ofFloat x) := by
  change Except.ok (Json.ofFloat (Decimal.roundPlaces x 6)) = _
  rw [h]

/-- A weight becomes the float of its value. -/
theorem normalize_weight {w : Int} (h : 1 ≤ w ∧ w ≤ 1000) :
    normalize (.ofInt w) = .ok (.ofFloat (.ofInt w)) := by
  have hpos : 0 < w := by omega
  have hlt : w < 2 ^ 53 := by omega
  obtain ⟨b, hb, -⟩ := Decimal.exists_ofFloat?_ofInt hpos hlt
  have hfloat : (Number.int w).toFloat? = some (.ofInt w) := by
    have hfinite : Decimal.isFinite (.ofInt w) = true := Option.isSome_iff_exists.mpr ⟨b, hb⟩
    simp [Number.toFloat?, Number.floatOfInt?, hfinite]
  rw [Json.ofInt, normalize, hfloat]
  simp only [Decimal.roundPlaces_ofInt hpos hlt]

/-- One value is the normal form of the other. -/
abbrev Normalizes (v normal : Json) : Prop := normalize v = .ok normal

theorem normalize_arr {xs ys : List Json} (h : List.Forall₂ Normalizes xs ys) :
    normalize (.arr xs) = .ok (.arr ys) := by
  have hitems : normalizeItems xs = .ok ys := by
    induction h with
    | nil => rfl
    | cons hx _ ih =>
      rw [normalizeItems, hx, ih]
      rfl
  rw [normalize, hitems]
  rfl

theorem normalize_obj {fs gs : Table Json} (h : Table.Related Normalizes fs gs) :
    normalize (.obj fs) = .ok (.obj gs) := by
  have hfields : normalizeFields fs = .ok gs := by
    induction h with
    | nil => rfl
    | @cons p q _ _ hp _ ih =>
      obtain ⟨k, v⟩ := p
      obtain ⟨k', w⟩ := q
      obtain ⟨rfl, hv⟩ := hp
      rw [normalizeFields, hv, ih]
      rfl
  rw [normalize, hfields]
  rfl

theorem normalize_mapValues {α : Type} {write normal : α → Json} {t : Table α}
    (h : ∀ p ∈ t, Normalizes (write p.2) (normal p.2)) :
    normalize (.obj (Table.mapValues write t)) = .ok (.obj (Table.mapValues normal t)) :=
  normalize_obj (forall₂_map fun p hp => ⟨rfl, h p hp⟩)

theorem normalize_floatsToJson {t : Table Float} (h : ∀ p ∈ t, Settled p.2) :
    normalize (Theme.floatsToJson t) = .ok (Theme.floatsToJson t) :=
  normalize_mapValues fun p hp => normalize_ofFloat (h p hp)

theorem normalize_shadowLayer {l : ShadowLayer} (hfloats : ∀ x ∈ l.floats, Settled x)
    (hcolor : ∃ text, l.color = .str text) : normalize l.toJson = .ok l.toJson := by
  obtain ⟨x, y, blur, spread, opacity, color, inset⟩ := l
  obtain ⟨text, rfl⟩ := hcolor
  simp only [ShadowLayer.floats, List.forall_mem_cons] at hfloats
  cases inset <;>
    exact normalize_obj (by simp [Table.Related, Normalizes, normalize, normalize_ofFloat, hfloats])

/-- The data of a build are normal but for the weights. -/
theorem normalize_toJson {s : Scales} (h : s.Regular) : normalize s.toJson = .ok s.normal := by
  obtain ⟨hspacing, hradii, hsizes, hlayers⟩ := Scales.forall_mem_floats.mp h.settled
  obtain ⟨hpx, hrem, hscale⟩ := SpacingScale.forall_mem_floats.mp hspacing
  have hunit : normalize s.spacing.toJson = .ok s.spacing.toJson :=
    normalize_obj (by simp [Table.Related, Normalizes, normalize_ofFloat, hpx, hrem,
      normalize_floatsToJson hscale])
  have hweights : normalize (.obj (Table.mapValues Json.ofInt s.fontWeight)) =
      .ok (.obj (Table.mapValues (fun w => Json.ofFloat (.ofInt w)) s.fontWeight)) :=
    normalize_mapValues fun p hp => normalize_weight (h.weights p hp)
  have hshadows : normalize (.obj (Table.mapValues ShadowPreset.toJson s.shadows)) =
      .ok (.obj (Table.mapValues ShadowPreset.toJson s.shadows)) := by
    refine normalize_mapValues fun p hp => ?_
    have hitems : normalize (.arr (p.2.layers.map ShadowLayer.toJson)) =
        .ok (.arr (p.2.layers.map ShadowLayer.toJson)) :=
      normalize_arr (forall₂_map fun l hl =>
        normalize_shadowLayer (hlayers p hp l hl) (h.colors p hp l hl))
    exact normalize_obj (by simp [Table.Related, Normalizes, hitems])
  exact normalize_obj (by simp [Table.Related, Normalizes, hunit, normalize_floatsToJson hradii,
    normalize_floatsToJson hsizes, hweights, hshadows])

theorem agree_toJson {s t : Scales} (hs : s.Regular) (ht : t.Regular) :
    agree s.toJson t.toJson = .ok (s.same t) := by
  rw [agree, normalize_toJson hs, normalize_toJson ht, ← hs.same_normal ht]
  rfl

/-! ### Theme data -/

/-- The names in theme data of the scales in which two snapshots differ. -/
def differing (s t : Snapshot) : List String :=
  (if s.framework.same t.framework then [] else ["tailwind"]) ++
    if s.computed.same t.computed then [] else ["computed"]

theorem differing_eq_nil_iff {s t : Snapshot} :
    differing s t = [] ↔ s.framework.same t.framework ∧ s.computed.same t.computed := by
  rw [differing]
  split <;> split <;> simp_all

variable {s t : Snapshot}

theorem staleLayers_eq (hs : s.framework.Regular ∧ s.computed.Regular)
    (ht : t.framework.Regular ∧ t.computed.Regular) {data : Table Json}
    (hframework : Table.get? "tailwind" data = some s.framework.toJson)
    (hcomputed : Table.get? "computed" data = some s.computed.toJson) :
    staleLayers data t.layers = .ok (differing s t) := by
  simp only [staleLayers, Snapshot.layers, List.filterM, List.filterAuxM, hframework, hcomputed,
    Option.getD_some, agree_toJson hs.1 ht.1, agree_toJson hs.2 ht.2, differing]
  cases s.framework.same t.framework <;> cases s.computed.same t.computed <;> rfl

/-- How the text of one snapshot's data compares with another snapshot. -/
theorem compareThemeData_artifact (hs : s.framework.Regular ∧ s.computed.Regular)
    (ht : t.framework.Regular ∧ t.computed.Regular) {stamp : String} {ms : List OpacityModifier}
    (hread : Json.read ((s.artifact stamp ms).pretty ++ "\n") = .ok (s.artifact stamp ms)) :
    Expectation.compareThemeData t.layers ((s.artifact stamp ms).pretty ++ "\n") =
      .ok (if differing s t = [] then []
        else [⟨none, "Theme data is stale: " ++ String.intercalate ", " (differing s t) ++
          " differ from the CSS sources"⟩]) := by
  have hstale : staleLayers ([("_generated", .str stamp), ("_sources", .arr s.sources)] ++
      s.layers ++ if ms.isEmpty then []
        else [("opacityModifiers", .arr (ms.map OpacityModifier.toJson))]) t.layers =
          .ok (differing s t) :=
    staleLayers_eq hs ht rfl rfl
  rw [Expectation.compareThemeData, hread]
  simp only [Snapshot.artifact, hstale, bind, Except.bind, pure, Except.pure]
  simp only [List.isEmpty_iff]

/-- The rule for one snapshot reports the text that was written for another one unless the scales of
both are equal; it then names the differing ones in a single hard violation. The text of the very
same snapshot is never stale. The opacities that go with it must be short enough to be written. -/
theorem evaluate_artifact {spec₁ spec₂ : Spec}
    (hfixed₁ : spec₁.fixedRadii = ({} : Spec).fixedRadii)
    (hfixed₂ : spec₂.fixedRadii = ({} : Spec).fixedRadii)
    {framework₁ frameworkSource₁ projectSource₁ framework₂ frameworkSource₂ projectSource₂ : String}
    {project₁ project₂ : Option String} {s₁ s₂ : Snapshot}
    (hbuild₁ : spec₁.build framework₁ project₁ frameworkSource₁ projectSource₁ = .ok s₁)
    (hbuild₂ : spec₂.build framework₂ project₂ frameworkSource₂ projectSource₂ = .ok s₂)
    (hfinite₁ : s₁.framework.Finite ∧ s₁.computed.Finite)
    (hfinite₂ : s₂.framework.Finite ∧ s₂.computed.Finite) (stamp : String)
    {ms : List OpacityModifier} (hms : ∀ m ∈ ms, m.opacity < 10 ^ Decimal.integerDigitLimit)
    {target here : Path} {path : String}
    (happlies : SyncRule.appliesTo ⟨target, .themeData s₂.layers⟩ here (.ofString path)) :
    ∃ found, SyncRule.evaluate ⟨target, .themeData s₂.layers⟩ here path
        ((s₁.artifact stamp ms).pretty ++ "\n") = .ok found ∧
      (found = [] ↔ s₁.framework.same s₂.framework ∧ s₁.computed.same s₂.computed) ∧
      (found ≠ [] → ∃ v, found = [v] ∧ v.severity = .hard ∧
        v.message = "Theme data is stale: " ++ String.intercalate ", " (differing s₁ s₂) ++
          " differ from the CSS sources") ∧
      (s₁ = s₂ → found = []) := by
  have hregular₁ := regular_of_build (fixedRegular_default hfixed₁) hbuild₁
  have hregular₂ := regular_of_build (fixedRegular_default hfixed₂) hbuild₂
  have hread := read_artifact hregular₁.1 hregular₁.2 hfinite₁ (sources_of_build hbuild₁) stamp hms
  have hself : s₁ = s₂ → differing s₁ s₂ = [] := by
    rintro rfl
    exact differing_eq_nil_iff.mpr
      ⟨hregular₁.1.same_self hfinite₁.1, hregular₁.2.same_self hfinite₁.2⟩
  rw [SyncRule.evaluate, if_pos happlies, Expectation.compare,
    compareThemeData_artifact hregular₁ hregular₂ hread]
  refine ⟨_, rfl, ?_⟩
  by_cases hsame : differing s₁ s₂ = []
  · simp [hsame, differing_eq_nil_iff.mp hsame]
  · have hne : ¬s₁ = s₂ := fun h => hsame (hself h)
    rw [if_neg hsame, ← differing_eq_nil_iff]
    refine ⟨by simp [hsame], fun _ => ⟨_, rfl, rfl, rfl⟩, fun h => absurd h hne⟩

/-- A font size that grows by two thousandths of a pixel makes the computed scales stale. -/
theorem evaluate_artifact_brief :
    ∃ s₁ s₂, Spec.brief.fixedRadii = ({} : Spec).fixedRadii ∧
      Spec.brief.build briefSheet none "framework" "project" = .ok s₁ ∧
      Spec.brief.build briefSheet (some briefProject) "framework" "project" = .ok s₂ ∧
      (s₁.framework.Finite ∧ s₁.computed.Finite) ∧ (s₂.framework.Finite ∧ s₂.computed.Finite) ∧
      SyncRule.appliesTo ⟨⟨.relative, ["theme.json"]⟩, .themeData s₂.layers⟩ ⟨.root, []⟩
        (.ofString "./theme.json") ∧
      ∃ v, SyncRule.evaluate ⟨⟨.relative, ["theme.json"]⟩, .themeData s₂.layers⟩ ⟨.root, []⟩
          "./theme.json" ((s₁.artifact "now" []).pretty ++ "\n") = .ok [v] ∧
        v.message = "Theme data is stale: computed differ from the CSS sources" := by
  obtain ⟨s₁, h₁⟩ := exists_build_brief none
  obtain ⟨s₂, h₂⟩ := exists_build_brief (some briefProject)
  have hfinite₁ := finite_brief (by simp) h₁
  have hfinite₂ := finite_brief (by simp) h₂
  have hdiffering : differing s₁ s₂ = ["computed"] := by
    have heval : ((Spec.brief.build briefSheet none "framework" "project").toOption.bind fun s =>
        (Spec.brief.build briefSheet (some briefProject) "framework" "project").toOption.map
          (differing s)) = some ["computed"] := by decide +kernel
    rw [h₁, h₂] at heval
    exact Option.some.inj heval
  have happlies : SyncRule.appliesTo ⟨⟨.relative, ["theme.json"]⟩, .themeData s₂.layers⟩
      ⟨.root, []⟩ (.ofString "./theme.json") := by
    have hresolve : (Path.ofString "./theme.json").resolve ⟨.root, []⟩ =
        (⟨.relative, ["theme.json"]⟩ : Path).resolve ⟨.root, []⟩ := by decide +kernel
    exact beq_iff_eq.mpr hresolve
  have hfixed : Spec.brief.fixedRadii = ({} : Spec).fixedRadii := rfl
  have hms : ∀ m ∈ ([] : List OpacityModifier), m.opacity < 10 ^ Decimal.integerDigitLimit := by
    simp
  obtain ⟨found, hfound, hnil, hone, -⟩ := evaluate_artifact hfixed hfixed h₁ h₂ hfinite₁ hfinite₂
    "now" hms happlies
  rw [← differing_eq_nil_iff, hdiffering] at hnil
  obtain ⟨v, rfl, -, hmessage⟩ := hone (mt hnil.mp (by simp))
  rw [hdiffering] at hmessage
  exact ⟨s₁, s₂, hfixed, h₁, h₂, hfinite₁, hfinite₂, happlies, v, hfound, hmessage⟩

end DesignTokens.Drift
