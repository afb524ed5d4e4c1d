import DesignTokens.Proofs.Tables
import DesignTokens.Proofs.Utility.Updates

/-!
Coherent styles. Fields that belong together are set together: a variable with its opacity, a shadow
with its layers, dashes with the style of the border; and what a style does not have, it has no
variable for. Updates that say coherent things keep a style so, in any order.
-/
namespace DesignTokens

/-- A float from zero to one. -/
def Number.IsFraction : Number → Prop
  | .float x => 0 ≤ x ∧ x ≤ 1
  | _ => False

/-- No field of a style has the name under which the states of an appearance stand. -/
theorem Style.has_states_fields (s : Style Number) : Table.has "states" s.fields = false := by
  have hnames : ∀ p ∈ s.fields, p.1 ∈
      ((({} : Style Number).numbers.map (·.1)) ++ ({} : Style Number).others.map (·.1)).map
        Text.camelCase := by
    intro p hp
    obtain ⟨⟨name, v⟩, hmem, hfield⟩ := List.mem_filterMap.mp hp
    obtain ⟨w, -, rfl⟩ := Option.map_eq_some_iff.mp hfield
    refine List.mem_map.mpr ⟨name, ?_, rfl⟩
    have hname := List.mem_map_of_mem (f := (·.1)) hmem
    rw [List.map_append, List.map_map] at hname
    exact hname
  have habsent : "states" ∉
      ((({} : Style Number).numbers.map (·.1)) ++ ({} : Style Number).others.map (·.1)).map
        Text.camelCase := by
    decide +kernel
  rw [Table.has, Table.get?_eq_none_iff.mpr]
  · rfl
  · intro hkey
    obtain ⟨p, hp, hname⟩ := List.mem_map.mp hkey
    exact habsent (hname ▸ hnames p hp)

namespace Utility

/-- One to three ASCII digits that write a whole percentage. -/
structure IsPercentage (digits : String) : Prop where
  short : isShortNumber 3 digits = true
  le : numberOf digits ≤ 100

/-- A variable and its opacity: a lead, a namespace, a hyphen and a name, and then a slash and a
percentage if and only if there is an opacity, which is that percentage. -/
inductive Shade (settings : Settings) (lead : String) : String → Option Number → Prop where
  | full {space name : String} (hspace : space ∈ settings.colorNamespaces) (hname : name ≠ "")
      (hslash : '/' ∉ (space ++ "-" ++ name).toList) :
      Shade settings lead (lead ++ (space ++ "-" ++ name)) none
  | part {space name digits : String} {x : Float} (hspace : space ∈ settings.colorNamespaces)
      (hname : name ≠ "") (hdigits : IsPercentage digits)
      (hx : x = Float.ofNat (numberOf digits) / 100) (hrange : (Number.float x).IsFraction) :
      Shade settings lead (lead ++ (space ++ "-" ++ name) ++ "/" ++ digits) (some (.float x))

/-- A shadow and its layers: neither, the shadow that has none, or a preset. -/
inductive ShadowOf (scales : Theme.Scales) : Option String → Option (List ShadowLayer) → Prop where
  | unset : ShadowOf scales none none
  | none : ShadowOf scales (some "none") (some [])
  | preset {name : String} {p : ShadowPreset} (h : Table.get? name scales.shadows = some p) :
      ShadowOf scales (some name) (some p.layers)

variable (scales : Theme.Scales) (settings : Settings)

/-- The fields of a style agree with each other, with the settings and with the theme. -/
structure Coherent (s : Style Number) : Prop where
  noFill : s.noFill = true → s.fillVariable = none ∧ s.fillOpacity = none
  whiteText : s.isWhiteText = true → s.textVariable = none
  fill : ∀ v, s.fillVariable = some v → Shade settings settings.fillLead v s.fillOpacity
  stroke : ∀ v, s.strokeVariable = some v → Shade settings settings.strokeLead v s.strokeOpacity
  text : ∀ v, s.textVariable = some v → Shade settings settings.textLead v s.textOpacity
  opacity : ∀ o, s.opacity = some o → o.IsFraction
  shadow : ShadowOf scales s.shadow s.shadowLayers
  dash : s.dashPattern.isSome ↔ s.borderStyle = some .dashed

theorem coherent_empty : Coherent scales settings {} := by
  constructor
  case shadow => exact .unset
  all_goals simp

/-- What an update says by itself. -/
def Update.Grounded : Update Number → Prop
  | .fill c => Shade settings settings.fillLead c.variableName c.opacity
  | .strokeColor c | .ringColor c _ =>
    Shade settings settings.strokeLead c.variableName c.opacity
  | .textColor c => Shade settings settings.textLead c.variableName c.opacity
  | .borderStyle style dash => dash.isSome ↔ style = .dashed
  | .opacity o => o.IsFraction
  | .shadow name layers => ShadowOf scales (some name) (some layers)
  | _ => True

/-- The styles of an appearance are coherent, and its states are configured. -/
structure CoherentAppearance (a : Appearance Number) : Prop where
  base : Coherent scales settings a.base
  states : ∀ p ∈ a.states, p.1 ∈ settings.stateVariants ∧ Coherent scales settings p.2

variable {scales settings} {s : Style Number}

/-- One update keeps a style coherent. -/
theorem Coherent.apply (hs : Coherent scales settings s) {u : Update Number}
    (hu : u.Grounded scales settings) : Coherent scales settings (u.apply s) := by
  cases u with
  | noFill =>
    refine { hs with noFill := fun _ => ⟨rfl, rfl⟩, fill := ?_ }
    intro v hv
    cases hv
  | fill c =>
    refine { hs with noFill := ?_, fill := ?_ }
    · intro h
      cases h
    · intro v hv
      obtain rfl := Option.some.inj hv
      exact hu
  | whiteText o =>
    refine { hs with whiteText := fun _ => rfl, text := ?_ }
    intro v hv
    cases hv
  | textColor c =>
    refine { hs with whiteText := ?_, text := ?_ }
    · intro h
      cases h
    · intro v hv
      obtain rfl := Option.some.inj hv
      exact hu
  | strokeColor c =>
    refine { hs with stroke := ?_ }
    intro v hv
    obtain rfl := Option.some.inj hv
    exact hu
  | ringColor c weight =>
    refine { hs with stroke := ?_ }
    intro v hv
    obtain rfl := Option.some.inj hv
    exact hu
  | borderStyle style dash =>
    exact { hs with dash := hu.trans Option.some_inj.symm }
  | opacity o =>
    refine { hs with opacity := ?_ }
    intro v hv
    obtain rfl := Option.some.inj hv
    exact hu
  | shadow name layers => exact { hs with shadow := hu }
  | _ => exact { hs with }

end Utility

end DesignTokens
