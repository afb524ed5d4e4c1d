import DesignTokens.Proofs.Results
import DesignTokens.Utility.Meaning

/-!
The updates that the utilities of each family can stand for. Every other fact about what an applied
token does is read off here, and no family is opened again.
-/
namespace DesignTokens.Utility

/-- The updates of a family. Widths that are written as digits show or hide a border. -/
inductive Family.Yields : Family → Update Number → Prop where
  | noFill : Yields .background .noFill
  | fill (c : ColorReference Number) : Yields .background (.fill c)
  | textSize (px : Float) : Yields .text (.fontSize (.float px))
  | textAlign (a : TextAlign) : Yields .text (.textAlign a)
  | whiteText (opacity : Option Number) : Yields .text (.whiteText opacity)
  | textColor (c : ColorReference Number) : Yields .text (.textColor c)
  | borderWeight (px : Float) : Yields .border (.borderWeight (.float px))
  | border (n : Nat) : Yields .border (.border (decide (0 < n)) (.int n))
  | noBorder : Yields .border (.noBorder 0)
  | borderStyle (style : BorderStyle) (dash : Option (List Nat)) :
    Yields .border (.borderStyle style dash)
  | borderColor (c : ColorReference Number) : Yields .border (.strokeColor c)
  | borderSides (sides : List Side) (n : Nat) :
    Yields (.borderSides sides) (.borderSides sides (.int n))
  | sideColor (sides : List Side) (c : ColorReference Number) :
    Yields (.borderSides sides) (.strokeColor c)
  | ring (n : Nat) : Yields .ring (.ring (decide (0 < n)) (.int n))
  | ringColor (c : ColorReference Number) : Yields .ring (.ringColor c 1)
  | radius (part : RadiusPart) (px : Float) : Yields (.radius part) (.radius part (.float px))
  | shadow (name : String) (layers : List ShadowLayer) : Yields .shadow (.shadow name layers)
  | fontWeight (weight : Int) : Yields .font (.fontWeight weight)
  | lineHeight (px : Float) : Yields .leading (.lineHeight (.float px))
  | opacity (x : Float) : Yields .opacity (.opacity (.float x))
  | padding (part : BoxPart) (px : Float) : Yields (.padding part) (.padding part (.float px))
  | margin (part : BoxPart) (px : Float) : Yields (.margin part) (.margin part (.float px))
  | gap (part : GapPart) (px : Float) : Yields (.gap part) (.gap part (.float px))
  | size (parts : List SizePart) (px : Float) : Yields (.size parts) (.size parts (.float px))

variable {scales : Theme.Scales} {settings : Settings} {t : Token} {value : String}
  {u : Update Number}

theorem background_yields (h : background settings t value = .ok u) : Family.background.Yields u := by
  simp only [background] at h
  repeat' split at h
  · cases h
  · cases h
  · injection h with h
    exact h ▸ .noFill
  · cases h
  · obtain ⟨c, -, rfl⟩ := map_eq_ok h
    exact .fill c

theorem textColor_yields (h : textColor settings t value = .ok u) : Family.text.Yields u := by
  simp only [textColor, bind, Except.bind, pure, Except.pure] at h
  split at h
  · cases h
  cases hopacity : modifierOpacity t with
  | error e => simp [hopacity] at h
  | ok opacity =>
    simp only [hopacity] at h
    split at h
    · injection h with h
      exact h ▸ .whiteText opacity
    split at h
    · cases h
    cases hcolor : colorReference settings.textLead value t with
    | error e => simp [hcolor] at h
    | ok c =>
      simp only [hcolor, Except.ok.injEq] at h
      exact h ▸ .textColor c

theorem text_yields (h : text scales settings t value = .ok u) : Family.text.Yields u := by
  simp only [text] at h
  repeat' split at h
  · cases h
  · rename_i px _
    injection h with h
    exact h ▸ .textSize px
  · cases h
  · rename_i px _
    injection h with h
    exact h ▸ .textSize px
  · rename_i a _
    injection h with h
    exact h ▸ .textAlign a
  · exact textColor_yields h

theorem border_yields (h : border settings t value = .ok u) : Family.border.Yields u := by
  simp only [border] at h
  repeat' split at h
  · cases h
  · rename_i px _
    injection h with h
    exact h ▸ .borderWeight px
  · cases h
  · injection h with h
    exact h ▸ .border 1
  · injection h with h
    exact h ▸ .border (numberOf value)
  · injection h with h
    exact h ▸ .noBorder
  · injection h with h
    exact h ▸ .borderStyle _ (some dashPattern)
  · injection h with h
    exact h ▸ .borderStyle _ none
  · obtain ⟨c, -, rfl⟩ := map_eq_ok h
    exact .borderColor c

theorem sideBorder_yields {sides : List Side} (h : sideBorder settings sides t value = .ok u) :
    (Family.borderSides sides).Yields u := by
  simp only [sideBorder] at h
  repeat' split at h
  · cases h
  · cases h
  · injection h with h
    exact h ▸ .borderSides sides 1
  · injection h with h
    exact h ▸ .borderSides sides (numberOf value)
  · obtain ⟨c, -, rfl⟩ := map_eq_ok h
    exact .sideColor sides c

theorem ring_yields (h : ring settings t value = .ok u) : Family.ring.Yields u := by
  simp only [ring] at h
  repeat' split at h
  · cases h
  · cases h
  · injection h with h
    exact h ▸ .ring 1
  · injection h with h
    exact h ▸ .ring (numberOf value)
  · cases h
  · obtain ⟨c, -, rfl⟩ := map_eq_ok h
    exact .ringColor c

/-- A spacing utility stands for its update at a length. -/
theorem spacing_yields {signed : Bool} {update : Number → Update Number}
    (h : spacing scales settings signed update t value = .ok u) :
    ∃ px : Float, u = update (.float px) := by
  simp only [spacing] at h
  repeat' split at h
  · cases h
  · cases h
  · injection h with h
    exact ⟨_, h.symm⟩
  · injection h with h
    exact ⟨_, h.symm⟩
  · cases h

theorem size_yields {parts : List SizePart} (h : size scales settings parts t value = .ok u) :
    (Family.size parts).Yields u := by
  simp only [size] at h
  repeat' split at h
  · cases h
  · rename_i px _
    injection h with h
    exact h ▸ .size parts px
  · cases h

theorem radius_yields {part : RadiusPart} (h : radius scales settings part t value = .ok u) :
    (Family.radius part).Yields u := by
  simp only [radius] at h
  repeat' split at h
  · cases h
  · rename_i px _
    injection h with h
    exact h ▸ .radius part px
  · cases h

theorem font_yields (h : font scales t value = .ok u) : Family.font.Yields u := by
  simp only [font] at h
  repeat' split at h
  · rename_i weight _
    injection h with h
    exact h ▸ .fontWeight weight
  · cases h
  · rename_i weight _
    injection h with h
    exact h ▸ .fontWeight weight
  · cases h

theorem leading_yields (h : leading scales settings t value = .ok u) : Family.leading.Yields u := by
  simp only [leading] at h
  split at h
  · rename_i px _
    injection h with h
    exact h ▸ .lineHeight px
  · cases h

theorem opacityInRange_yields {x : Float} (h : opacityInRange x = .ok u) :
    Family.opacity.Yields u := by
  simp only [opacityInRange] at h
  split at h
  · injection h with h
    exact h ▸ .opacity x
  · cases h

theorem opacity_yields (h : opacity t value = .ok u) : Family.opacity.Yields u := by
  simp only [opacity] at h
  repeat' split at h
  · exact opacityInRange_yields h
  · cases h
  · exact opacityInRange_yields h
  · cases h

theorem shadow_yields (h : shadow scales t value = .ok u) : Family.shadow.Yields u := by
  simp only [shadow] at h
  split at h
  · cases h
  split at h
  · injection h with h
    exact h ▸ .shadow "none" []
  split at h
  · injection h with h
    exact h ▸ .shadow _ _
  · cases h

/-- What a value means within a family is an update of that family. -/
theorem familyMeaning_yields {family : Family}
    (h : familyMeaning scales settings t value family = .ok u) : family.Yields u := by
  cases family <;> simp only [familyMeaning] at h
  case background => exact background_yields h
  case text => exact text_yields h
  case border => exact border_yields h
  case borderSides sides => exact sideBorder_yields h
  case ring => exact ring_yields h
  case radius part => exact radius_yields h
  case shadow => exact shadow_yields h
  case font => exact font_yields h
  case leading => exact leading_yields h
  case opacity => exact opacity_yields h
  case size parts => exact size_yields h
  case padding part =>
    obtain ⟨px, rfl⟩ := spacing_yields h
    exact .padding part px
  case margin part =>
    obtain ⟨px, rfl⟩ := spacing_yields h
    exact .margin part px
  case gap part =>
    obtain ⟨px, rfl⟩ := spacing_yields h
    exact .gap part px

/-- A utility that means an update is a layout keyword or belongs to a family. -/
theorem utilityMeaning_yields (h : utilityMeaning scales settings t = .ok u) :
    Table.get? t.utility layoutKeywords = some u ∨ ∃ family : Family, family.Yields u := by
  simp only [utilityMeaning] at h
  split at h
  · rename_i hkeyword
    injection h with h
    subst h
    split at hkeyword
    · exact .inl hkeyword
    · cases hkeyword
  · split at h
    · rename_i family value _
      exact .inr ⟨family, familyMeaning_yields h⟩
    · cases h

end DesignTokens.Utility
