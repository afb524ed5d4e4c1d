import DesignTokens.Proofs.Css.Declarations
import DesignTokens.Proofs.Css.Layers
import DesignTokens.Proofs.Results
import DesignTokens.Theme.Spec

/-!
Which frameworks build. The first expected token that is not declared, or not in the form that it
must have, ends the build; a project's style sheet has no part in this.
-/
namespace DesignTokens.Theme

/-- Whether a value has the form that is asked for. -/
def Shape.fits (root : Float) : Shape → String → Bool
  | .length, raw => (Css.parseLength raw root).isSome
  | .weight, raw => (Decimal.readInt? (Text.trim raw)).any fun w => 1 ≤ w && w ≤ 1000
  | .shadow, raw => !(Css.splitLayers raw).isEmpty &&
      (Css.splitLayers raw).all fun layer => (Css.parseLayer layer root).isSome

/-- A token that a framework must declare. -/
structure ExpectedToken where
  property : String
  shape : Shape
  deriving DecidableEq, Repr

namespace ExpectedToken

/-- Whether a token is absent or has another form. -/
def isOffending (root : Float) (declared : String → Option String) (t : ExpectedToken) : Bool :=
  !(declared t.property).any (t.shape.fits root)

/-- The fault of a token that is absent or has another form. -/
def fault (declared : String → Option String) (source : String) (t : ExpectedToken) : Fault :=
  match declared t.property with
  | none => .missing t.property source
  | some raw => .invalid t.property raw source t.shape

end ExpectedToken

/-- The expected tokens in the order in which they are looked for. -/
def Spec.expected (spec : Spec) : List ExpectedToken :=
  ⟨spec.spacingVariable, .length⟩ ::
    (spec.radiusKeys.map (fun key => ⟨spec.radiusLead ++ key, .length⟩) ++
      spec.fontSizeKeys.map (fun key => ⟨spec.fontSizeLead ++ key, .length⟩) ++
      spec.fontWeightKeys.map (fun key => ⟨spec.fontWeightLead ++ key, .weight⟩) ++
      spec.shadowKeys.map (fun key => ⟨spec.shadowLead ++ key, .shadow⟩))

/-! ### Values of a form -/

theorem isSome_parseLength (raw : String) (root : Float) :
    (Css.parseLength raw root).isSome = Shape.length.fits root raw := rfl

theorem isSome_parseWeight (raw : String) (root : Float) :
    (Css.parseWeight raw).isSome = Shape.weight.fits root raw := by
  simp only [Css.parseWeight, Shape.fits]
  cases Decimal.readInt? (Text.trim raw) with
  | none => rfl
  | some w =>
    rw [Bool.eq_iff_iff]
    simp

theorem isSome_parseShadow (name raw : String) (root : Float) :
    (Css.parseShadow name raw root).isSome = Shape.shadow.fits root raw :=
  Css.isSome_parseShadow name raw root

/-! ### Failures of a build -/

/-- The fault of a token that has to be declared and readable. -/
theorem failure?_require {α : Type} {props : Table String} {source : String} {root : Float}
    {t : ExpectedToken} {parse : String → Option α}
    (h : ∀ raw, (parse raw).isSome = t.shape.fits root raw) :
    failure? (require props source t.property t.shape parse) =
      if t.isOffending root (Table.get? · props) then
        some (t.fault (Table.get? · props) source) else none := by
  cases hget : Table.get? t.property props with
  | none => simp [require, ExpectedToken.isOffending, ExpectedToken.fault, hget]
  | some raw =>
    have hraw := h raw
    cases hparse : parse raw with
    | none =>
      have hfits : t.shape.fits root raw = false := by simp [← hraw, hparse]
      simp [require, ExpectedToken.isOffending, ExpectedToken.fault, hget, hparse, hfits]
    | some v =>
      have hfits : t.shape.fits root raw = true := by simp [← hraw, hparse]
      simp [require, ExpectedToken.isOffending, hget, hparse, hfits]

theorem failure?_tabulate {α : Type} (keys : List String) (f : String → Except Fault α) :
    failure? (tabulate keys f) = keys.findSome? fun key => failure? (f key) := by
  have hentry : ∀ key, failure? (do return (key, ← f key)) = failure? (f key) := by
    intro key
    rw [failure?_bind (o := none) fun _ _ => rfl, Option.or_none]
  rw [tabulate, failure?_bind (o := none) fun _ _ => rfl, Option.or_none, failure?_mapM]
  simp only [hentry]

variable {spec : Spec} {props : Table String} {source : String}

/-- The first offending token of a list, as a fault. -/
def firstFault? (root : Float) (declared : String → Option String) (source : String)
    (ts : List ExpectedToken) : Option Fault :=
  (ts.find? (·.isOffending root declared)).map (·.fault declared source)

theorem firstFault?_cons (root : Float) (declared : String → Option String) (source : String)
    (t : ExpectedToken) (ts : List ExpectedToken) : firstFault? root declared source (t :: ts) =
      if t.isOffending root declared then some (t.fault declared source)
      else firstFault? root declared source ts := by
  by_cases h : t.isOffending root declared <;> simp [firstFault?, h]

theorem firstFault?_append (root : Float) (declared : String → Option String) (source : String)
    (ts us : List ExpectedToken) : firstFault? root declared source (ts ++ us) =
      (firstFault? root declared source ts).or (firstFault? root declared source us) := by
  rw [firstFault?, List.find?_append]
  cases h : ts.find? (·.isOffending root declared) <;> simp [firstFault?, h]

/-- A table with one token for each key fails with the first of them that offends. -/
theorem failure?_tabulate_require {α : Type} {root : Float} {shape : Shape} {lead : String}
    {parse : String → String → Option α}
    (h : ∀ key raw, (parse key raw).isSome = shape.fits root raw) (keys : List String) :
    failure? (tabulate keys fun key => require props source (lead ++ key) shape (parse key)) =
      firstFault? root (Table.get? · props) source
        (keys.map fun key => ⟨lead ++ key, shape⟩) := by
  rw [failure?_tabulate]
  induction keys with
  | nil => rfl
  | cons key keys ih =>
    rw [List.findSome?_cons, ih, List.map_cons, firstFault?_cons]
    rw [failure?_require (t := ⟨lead ++ key, shape⟩) (h key)]
    cases (⟨lead ++ key, shape⟩ : ExpectedToken).isOffending root (Table.get? · props) <;> rfl

/-! ### Specifications that can be met -/

/-- The keys of the spacing scale are numbers or `px`, and the root font size is not zero. -/
structure Spec.Sound (spec : Spec) : Prop where
  spacingKeys : ∀ key ∈ spec.spacingKeys, key = "px" ∨ (Decimal.readFloat? key).isSome
  root : (spec.rootFontSize == 0) = false

theorem failure?_spacingStep {key : String} (h : key = "px" ∨ (Decimal.readFloat? key).isSome)
    (basePx : Float) : failure? (spacingStep basePx key) = none := by
  rcases h with rfl | h
  · rfl
  · obtain ⟨k, hk⟩ := Option.isSome_iff_exists.mp h
    rw [spacingStep]
    split
    · rfl
    · rw [hk]
      rfl

variable (hspec : spec.Sound)
include hspec

theorem failure?_parseSpacing :
    failure? (parseSpacing props spec.spacingKeys source spec.spacingVariable spec.rootFontSize) =
      firstFault? spec.rootFontSize (Table.get? · props) source
        [⟨spec.spacingVariable, .length⟩] := by
  have hscale : ∀ basePx, failure? (tabulate spec.spacingKeys (spacingStep basePx)) = none := by
    intro basePx
    rw [failure?_tabulate, List.findSome?_eq_none_iff]
    intro key hkey
    exact failure?_spacingStep (hspec.spacingKeys key hkey) basePx
  rw [parseSpacing, failure?_bind (o := none), Option.or_none,
    failure?_require (t := ⟨spec.spacingVariable, .length⟩) fun raw => isSome_parseLength raw _,
    firstFault?_cons]
  · rfl
  · intro basePx _
    rw [failure?_bind (o := none), hscale, Option.or_none]
    intro scale _
    rw [hspec.root]
    rfl

theorem failure?_framework : failure? (spec.framework props source) =
    firstFault? spec.rootFontSize (Table.get? · props) source spec.expected := by
  rw [Spec.framework, Spec.expected, ← List.singleton_append]
  simp only [firstFault?_append, Option.or_assoc]
  rw [← failure?_parseSpacing hspec]
  refine failure?_bind fun _ _ => ?_
  rw [← failure?_tabulate_require fun _ raw => isSome_parseLength raw _]
  refine failure?_bind fun _ _ => ?_
  rw [← failure?_tabulate_require fun _ raw => isSome_parseLength raw _]
  refine failure?_bind fun _ _ => ?_
  rw [← failure?_tabulate_require fun _ raw => isSome_parseWeight raw _]
  refine failure?_bind fun _ _ => ?_
  rw [← failure?_tabulate_require fun key raw => isSome_parseShadow key raw _]
  rw [failure?_bind (o := none) fun _ _ => rfl, Option.or_none]
  rfl

/-- An override is used only where it can be read, so that it never fails. -/
theorem failure?_computed (base : Scales) : failure? (spec.computed base props source) = none := by
  have hspacing : failure? (spec.overrideSpacing props source base.spacing) = none := by
    rw [Spec.overrideSpacing]
    split
    · rfl
    · rename_i raw hraw
      split
      · rfl
      · rename_i px hpx
        have hfits : Shape.length.fits spec.rootFontSize raw = true := by
          rw [← isSome_parseLength, hpx]
          rfl
        rw [failure?_parseSpacing hspec, firstFault?_cons]
        simp [ExpectedToken.isOffending, hraw, hfits, firstFault?]
  rw [Spec.computed, failure?_bind (o := none) fun _ _ => rfl, hspacing]
  rfl

/-- A build fails in the same way whatever the project says. -/
theorem failure?_build (framework : String) (project : Option String)
    (frameworkSource projectSource : String) :
    failure? (spec.build framework project frameworkSource projectSource) =
      firstFault? spec.rootFontSize (Css.declared? framework) frameworkSource spec.expected := by
  have hdeclared : (Table.get? · (Css.customProperties framework)) = Css.declared? framework :=
    funext fun name => Css.get?_customProperties framework name
  rw [Spec.build, failure?_bind (o := none), Option.or_none, failure?_framework hspec, hdeclared]
  intro base _
  split
  · rfl
  · rw [failure?_bind (o := none) fun _ _ => rfl, failure?_computed hspec]
    rfl

/-- A build fails if and only if an expected token of the framework is absent or has another form.
The fault is that of the first such token, and the project does not matter. -/
theorem build_eq_error_iff (framework : String) (project : Option String)
    (frameworkSource projectSource : String) :
    ((∃ f, spec.build framework project frameworkSource projectSource = .error f) ↔
      ∃ t ∈ spec.expected, t.isOffending spec.rootFontSize (Css.declared? framework)) ∧
    (∀ f, spec.build framework project frameworkSource projectSource = .error f ↔
      ∃ t, spec.expected.find? (·.isOffending spec.rootFontSize (Css.declared? framework)) = some t ∧
        t.fault (Css.declared? framework) frameworkSource = f) ∧
    (∀ f other otherSource,
      spec.build framework other frameworkSource otherSource = .error f ↔
        spec.build framework project frameworkSource projectSource = .error f) := by
  have hfails : ∀ f, spec.build framework project frameworkSource projectSource = .error f ↔
      ∃ t, spec.expected.find? (·.isOffending spec.rootFontSize (Css.declared? framework)) = some t ∧
        t.fault (Css.declared? framework) frameworkSource = f := by
    intro f
    rw [← failure?_eq_some_iff, failure?_build hspec, firstFault?, Option.map_eq_some_iff]
  refine ⟨?_, hfails, ?_⟩
  · constructor
    · rintro ⟨f, hf⟩
      obtain ⟨t, ht, -⟩ := (hfails f).mp hf
      exact ⟨t, List.mem_of_find?_eq_some ht, List.find?_some ht⟩
    · rintro ⟨t, ht, hoff⟩
      obtain ⟨u, hu⟩ := Option.isSome_iff_exists.mp (List.find?_isSome.mpr ⟨t, ht, hoff⟩)
      exact ⟨_, (hfails _).mpr ⟨u, hu, rfl⟩⟩
  · intro f other otherSource
    rw [← failure?_eq_some_iff, ← failure?_eq_some_iff, failure?_build hspec, failure?_build hspec]

omit hspec

/-- A specification with one token of each family. -/
def Spec.brief : Spec where
  spacingKeys := ["px", "0.5"]
  radiusKeys := ["sm"]
  fontSizeKeys := ["xs"]
  fontWeightKeys := ["thin"]
  shadowKeys := ["xs"]

theorem sound_brief : Spec.brief.Sound where
  spacingKeys := by decide +kernel
  root := by decide

/-- The last radius is no length and comes before a weight that is absent; that the project declares
both does not help. -/
theorem build_brief_unreadable :
    Spec.brief.Sound ∧
      Spec.brief.build "--spacing: 4px; --radius-sm: 2px; --text-xs: 1rem; --radius-sm: 2vw;"
          (some "--radius-sm: 2px; --font-weight-thin: 100;") "framework" "project" =
        .error (.invalid "--radius-sm" "2vw" "framework" .length) := by
  have hfirst : Spec.brief.expected.find? (·.isOffending Spec.brief.rootFontSize
      (Css.declared? "--spacing: 4px; --radius-sm: 2px; --text-xs: 1rem; --radius-sm: 2vw;")) =
        some ⟨"--radius-sm", .length⟩ := by decide +kernel
  have hfails := (build_eq_error_iff sound_brief
    "--spacing: 4px; --radius-sm: 2px; --text-xs: 1rem; --radius-sm: 2vw;"
    (some "--radius-sm: 2px; --font-weight-thin: 100;") "framework" "project").2.1
  exact ⟨sound_brief, (hfails _).mpr ⟨_, hfirst, by decide +kernel⟩⟩

end DesignTokens.Theme
