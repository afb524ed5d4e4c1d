import DesignTokens.Utility.Update

/-!
The fields of a style one by one, and which of them an update writes. An update leaves every other
field alone, and what it writes does not depend on the style that it finds; a ring colour alone
looks at the stroke weight, and does not count as writing it.
-/
namespace DesignTokens

namespace Style

/-- The single properties that a style holds. -/
inductive Field where
  | fillVariable
  | fillOpacity
  | noFill
  | strokeVariable
  | strokeOpacity
  | hasBorder
  | strokeWeight
  | borderSides
  | borderStyle
  | dashPattern
  | textVariable
  | textOpacity
  | isWhiteText
  | fontSize
  | fontWeight
  | lineHeight
  | textAlign
  | radius (part : RadiusPart)
  | padding (part : BoxPart)
  | margin (part : BoxPart)
  | gap (part : GapPart)
  | size (part : SizePart)
  | opacity
  | shadow
  | shadowLayers
  | layoutMode
  | alignItems
  | justifyContent
  | wrap
  | grow
  deriving DecidableEq, Repr

namespace Field

/-- What a field holds. -/
def Content (α : Type) : Field → Type
  | fillVariable | strokeVariable | textVariable | shadow => Option String
  | noFill | hasBorder | isWhiteText | wrap | grow => Bool
  | borderSides => Option (List Side)
  | borderStyle => Option BorderStyle
  | dashPattern => Option (List Nat)
  | fontWeight => Option Int
  | textAlign => Option TextAlign
  | shadowLayers => Option (List ShadowLayer)
  | layoutMode => Option LayoutMode
  | alignItems => Option AlignItems
  | justifyContent => Option JustifyContent
  | fillOpacity | strokeOpacity | strokeWeight | textOpacity | fontSize | lineHeight | radius _
    | padding _ | margin _ | gap _ | size _ | opacity => Option α

/-- The content of a field. -/
def value {α : Type} : (f : Field) → Style α → f.Content α
  | fillVariable, s => s.fillVariable
  | fillOpacity, s => s.fillOpacity
  | noFill, s => s.noFill
  | strokeVariable, s => s.strokeVariable
  | strokeOpacity, s => s.strokeOpacity
  | hasBorder, s => s.hasBorder
  | strokeWeight, s => s.strokeWeight
  | borderSides, s => s.borderSides
  | borderStyle, s => s.borderStyle
  | dashPattern, s => s.dashPattern
  | textVariable, s => s.textVariable
  | textOpacity, s => s.textOpacity
  | isWhiteText, s => s.isWhiteText
  | fontSize, s => s.fontSize
  | fontWeight, s => s.fontWeight
  | lineHeight, s => s.lineHeight
  | textAlign, s => s.textAlign
  | radius part, s => s.radii.get part
  | padding part, s => s.padding.get part
  | margin part, s => s.margin.get part
  | gap part, s => s.gaps.get part
  | size part, s => s.sizes.get part
  | opacity, s => s.opacity
  | shadow, s => s.shadow
  | shadowLayers, s => s.shadowLayers
  | layoutMode, s => s.layoutMode
  | alignItems, s => s.alignItems
  | justifyContent, s => s.justifyContent
  | wrap, s => s.wrap
  | grow, s => s.grow

end Field

end Style

theorem Radii.get_set {α : Type} (v : α) (r : Radii α) (p q : RadiusPart) :
    (r.set v p).get q = if q = p then some v else r.get q := by
  rcases p with _ | s | c
  · rcases q with _ | s | c
    · rfl
    · cases s <;> rfl
    · cases c <;> rfl
  · cases s <;> rcases q with _ | s | c <;> first | rfl | (cases s <;> rfl) | (cases c <;> rfl)
  · cases c <;> rcases q with _ | s | c <;> first | rfl | (cases s <;> rfl) | (cases c <;> rfl)

/-- Of the lengths that are set to one value, each has it. -/
theorem Sizes.get_foldl_set {α : Type} (v : α) (parts : List SizePart) (s : Sizes α)
    (q : SizePart) :
    (parts.foldl (Sizes.set v) s).get q = if q ∈ parts then some v else s.get q := by
  induction parts generalizing s with
  | nil => simp
  | cons p parts ih =>
    rw [List.foldl_cons, ih, Sizes.get_set]
    by_cases hp : q = p <;> by_cases hq : q ∈ parts <;> simp [hp, hq]

namespace Utility

open Style (Field)

variable {α : Type}

/-- The fields that an update writes whatever the style holds. -/
def Update.targets : Update α → List Field
  | .layoutMode _ => [.layoutMode]
  | .wrap _ => [.wrap]
  | .grow => [.grow]
  | .alignItems _ => [.alignItems]
  | .justifyContent _ => [.justifyContent]
  | .noFill | .fill _ => [.noFill, .fillVariable, .fillOpacity]
  | .fontSize _ => [.fontSize]
  | .textAlign _ => [.textAlign]
  | .whiteText _ | .textColor _ => [.isWhiteText, .textVariable, .textOpacity]
  | .strokeColor _ => [.strokeVariable, .strokeOpacity]
  | .borderWeight _ | .noBorder _ | .ring .. => [.hasBorder, .strokeWeight]
  | .border .. | .borderSides .. => [.hasBorder, .strokeWeight, .borderSides]
  | .borderStyle .. => [.hasBorder, .borderStyle, .dashPattern]
  | .ringColor .. => [.strokeVariable, .strokeOpacity, .hasBorder]
  | .radius part _ => [.radius part]
  | .padding part _ => [.padding part]
  | .margin part _ => [.margin part]
  | .gap part _ => [.gap part]
  | .size parts _ => parts.map .size
  | .fontWeight _ => [.fontWeight]
  | .lineHeight _ => [.lineHeight]
  | .opacity _ => [.opacity]
  | .shadow .. => [.shadow, .shadowLayers]

/-- A ring colour fills in a stroke weight that is not there. -/
def Update.fillsWeight : Update α → Bool
  | .ringColor .. => true
  | _ => false

/-- What an update writes is the same for every style. -/
theorem Update.value_apply_of_mem {u : Update α} {f : Field} (h : f ∈ u.targets) (s t : Style α) :
    f.value (u.apply s) = f.value (u.apply t) := by
  cases u with
  | radius part px =>
    obtain rfl : f = .radius part := by simpa [targets] using h
    change (s.radii.set px part).get part = (t.radii.set px part).get part
    simp [Radii.get_set]
  | padding part px =>
    obtain rfl : f = .padding part := by simpa [targets] using h
    change (s.padding.set px part).get part = (t.padding.set px part).get part
    simp [Box.get_set]
  | margin part px =>
    obtain rfl : f = .margin part := by simpa [targets] using h
    change (s.margin.set px part).get part = (t.margin.set px part).get part
    simp [Box.get_set]
  | gap part px =>
    obtain rfl : f = .gap part := by simpa [targets] using h
    change (s.gaps.set px part).get part = (t.gaps.set px part).get part
    simp [Gaps.get_set]
  | size parts px =>
    obtain ⟨part, hpart, rfl⟩ : ∃ part ∈ parts, Field.size part = f := by simpa [targets] using h
    change (parts.foldl (Sizes.set px) s.sizes).get part =
      (parts.foldl (Sizes.set px) t.sizes).get part
    simp [Sizes.get_foldl_set, hpart]
  | _ =>
    simp only [targets, List.mem_cons, List.not_mem_nil, or_false] at h
    rcases h with rfl | rfl | rfl | rfl <;> rfl

/-- An update leaves the fields alone that it does not write. -/
theorem Update.value_apply_of_not_mem {u : Update α} {f : Field} (h : f ∉ u.targets)
    (hw : f = .strokeWeight → u.fillsWeight = false) (s : Style α) :
    f.value (u.apply s) = f.value s := by
  cases u with
  | radius part px =>
    cases f with
    | radius q =>
      have hq : q ≠ part := by simpa [targets] using h
      change (s.radii.set px part).get q = s.radii.get q
      simp [Radii.get_set, hq]
    | _ => rfl
  | padding part px =>
    cases f with
    | padding q =>
      have hq : q ≠ part := by simpa [targets] using h
      change (s.padding.set px part).get q = s.padding.get q
      simp [Box.get_set, hq]
    | _ => rfl
  | margin part px =>
    cases f with
    | margin q =>
      have hq : q ≠ part := by simpa [targets] using h
      change (s.margin.set px part).get q = s.margin.get q
      simp [Box.get_set, hq]
    | _ => rfl
  | gap part px =>
    cases f with
    | gap q =>
      have hq : q ≠ part := by simpa [targets] using h
      change (s.gaps.set px part).get q = s.gaps.get q
      simp [Gaps.get_set, hq]
    | _ => rfl
  | size parts px =>
    cases f with
    | size q =>
      have hq : q ∉ parts := by simpa [targets] using h
      change (parts.foldl (Sizes.set px) s.sizes).get q = s.sizes.get q
      simp [Sizes.get_foldl_set, hq]
    | _ => rfl
  | ringColor c weight =>
    cases f with
    | strokeWeight => simp [fillsWeight] at hw
    | strokeVariable | strokeOpacity | hasBorder => simp [targets] at h
    | _ => rfl
  | _ => cases f <;> first | rfl | simp [targets] at h

end Utility

end DesignTokens
