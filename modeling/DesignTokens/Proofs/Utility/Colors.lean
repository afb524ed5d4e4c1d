import DesignTokens.Proofs.Utility.Grounded

/-!
Colours that tokens set. A colour is the value of a background, text, border or ring utility, behind
the lead of its kind, and such a token has neither a sign nor a bracketed value.
-/
namespace DesignTokens.Utility

variable {scales : Theme.Scales} {settings : Settings} {t : Token} {value lead : String}
  {u : Update Number} {c : ColorReference Number} {family : Family}

/-- The colour that an update sets, and what its variable begins with. -/
def Update.color? (settings : Settings) : Update Number → Option (String × ColorReference Number)
  | .fill c => some (settings.fillLead, c)
  | .textColor c => some (settings.textLead, c)
  | .strokeColor c | .ringColor c _ => some (settings.strokeLead, c)
  | _ => none

/-- A token of a family whose value is a colour. -/
structure SetsColor (settings : Settings) (t : Token) (value lead : String)
    (c : ColorReference Number) : Prop where
  plain : t.arbitrary = none
  positive : t.negative = false
  isColor : settings.isColor value = true
  reference : colorReference lead value t = .ok c

/-- The variable of a colour with a percentage, and its opacity. -/
theorem colorReference_of_modifier {m : String} (hm : t.modifier = some m) (h : IsPercentage m) :
    colorReference lead value t =
      .ok ⟨lead ++ value ++ "/" ++ m, some (.float (Float.ofNat (numberOf m) / 100))⟩ := by
  simp [colorReference, modifierOpacity, hm, h.short, h.le]

/-- A modifier next to a colour is a percentage. -/
theorem percentage_of_colorReference {m : String} (hm : t.modifier = some m)
    (h : colorReference lead value t = .ok c) : IsPercentage m := by
  obtain ⟨o, ho, -⟩ := bind_eq_ok h
  rcases modifierOpacity_eq_ok ho with ⟨hnone, -⟩ | ⟨digits, hdigits, hpercentage, -⟩
  · rw [hm] at hnone
    cases hnone
  · rw [hm] at hdigits
    exact Option.some.inj hdigits ▸ hpercentage

theorem setsColor_of_strokeColor (hplain : t.arbitrary = none) (hpositive : t.negative = false)
    (h : strokeColor settings t value = .ok c) :
    SetsColor settings t value settings.strokeLead c := by
  simp only [strokeColor] at h
  split at h
  · cases h
  · rename_i hcolor
    exact ⟨hplain, hpositive, by simpa using hcolor, h⟩

theorem setsColor_of_background (h : background settings t value = .ok (.fill c)) :
    SetsColor settings t value settings.fillLead c := by
  simp only [background] at h
  repeat' split at h
  · cases h
  · cases h
  · cases h
  · cases h
  · rename_i hvalue hpositive _ hcolor
    obtain ⟨c', hc, hfill⟩ := map_eq_ok h
    obtain rfl := Update.fill.inj hfill
    refine ⟨?_, by simpa using hpositive, by simpa using hcolor, hc⟩
    cases hplain : t.arbitrary with
    | none => rfl
    | some a => simp [hplain] at hvalue

theorem setsColor_of_text (h : text scales settings t value = .ok (.textColor c)) :
    SetsColor settings t value settings.textLead c := by
  simp only [text] at h
  repeat' split at h
  · cases h
  · cases h
  · cases h
  · cases h
  · cases h
  · rename_i hpositive _ hplain _ _ _ _
    simp only [textColor] at h
    split at h
    · cases h
    obtain ⟨o, ho, h⟩ := bind_eq_ok h
    split at h
    · cases h
    split at h
    · cases h
    · rename_i hcolor
      obtain ⟨c', hc, h⟩ := bind_eq_ok h
      obtain rfl := Update.textColor.inj (Except.ok.inj h)
      exact ⟨hplain, by simpa using hpositive, by simpa using hcolor, hc⟩

theorem setsColor_of_border (h : border settings t value = .ok (.strokeColor c)) :
    SetsColor settings t value settings.strokeLead c := by
  simp only [border] at h
  repeat' split at h
  · cases h
  · cases h
  · cases h
  · cases h
  · cases h
  · cases h
  · cases h
  · cases h
  · rename_i hpositive _ hplain _ _ _ _ _
    obtain ⟨c', hc, hstroke⟩ := map_eq_ok h
    obtain rfl := Update.strokeColor.inj hstroke
    exact setsColor_of_strokeColor hplain (by simpa using hpositive) hc

theorem setsColor_of_sideBorder {sides : List Side}
    (h : sideBorder settings sides t value = .ok (.strokeColor c)) :
    SetsColor settings t value settings.strokeLead c := by
  simp only [sideBorder] at h
  repeat' split at h
  · cases h
  · cases h
  · cases h
  · cases h
  · rename_i hpositive hplain _ _
    obtain ⟨c', hc, hstroke⟩ := map_eq_ok h
    obtain rfl := Update.strokeColor.inj hstroke
    exact setsColor_of_strokeColor (by simpa using hplain) (by simpa using hpositive) hc

theorem setsColor_of_ring {weight : Number} (h : ring settings t value = .ok (.ringColor c weight)) :
    SetsColor settings t value settings.strokeLead c := by
  simp only [ring] at h
  repeat' split at h
  · cases h
  · cases h
  · cases h
  · cases h
  · cases h
  · rename_i hpositive hplain _ _ _
    obtain ⟨c', hc, hstroke⟩ := map_eq_ok h
    obtain ⟨rfl, -⟩ := Update.ringColor.inj hstroke
    exact setsColor_of_strokeColor (by simpa using hplain) (by simpa using hpositive) hc

/-- The families whose values can be colours. -/
def Family.isColored : Family → Bool
  | .background | .text | .border | .borderSides _ | .ring => true
  | _ => false

/-- A colour comes from a family of colours, where it is the value. -/
theorem setsColor_of_familyMeaning (h : familyMeaning scales settings t value family = .ok u)
    (hc : u.color? settings = some (lead, c)) :
    family.isColored ∧ SetsColor settings t value lead c := by
  cases familyMeaning_yields h with
  | fill c' =>
    obtain ⟨rfl, rfl⟩ := Prod.mk.inj (Option.some.inj hc)
    exact ⟨rfl, setsColor_of_background h⟩
  | textColor c' =>
    obtain ⟨rfl, rfl⟩ := Prod.mk.inj (Option.some.inj hc)
    exact ⟨rfl, setsColor_of_text h⟩
  | borderColor c' =>
    obtain ⟨rfl, rfl⟩ := Prod.mk.inj (Option.some.inj hc)
    exact ⟨rfl, setsColor_of_border h⟩
  | sideColor sides c' =>
    obtain ⟨rfl, rfl⟩ := Prod.mk.inj (Option.some.inj hc)
    exact ⟨rfl, setsColor_of_sideBorder h⟩
  | ringColor c' =>
    obtain ⟨rfl, rfl⟩ := Prod.mk.inj (Option.some.inj hc)
    exact ⟨rfl, setsColor_of_ring h⟩
  | _ => cases hc

theorem color?_layoutKeywords (settings : Settings) :
    ∀ p ∈ layoutKeywords, p.2.color? settings = none := by
  simp [layoutKeywords, Update.color?]

/-- A token that sets a colour has it as its value. -/
theorem setsColor_of_utilityMeaning (h : utilityMeaning scales settings t = .ok u)
    (hc : u.color? settings = some (lead, c)) :
    ∃ family value, lookup? vocabulary t.utility = some (family, value) ∧ family.isColored ∧
      SetsColor settings t value lead c := by
  simp only [utilityMeaning] at h
  split at h
  · rename_i update hkeyword
    obtain rfl := Except.ok.inj h
    split at hkeyword
    · have hnone := color?_layoutKeywords settings _ (Table.mem_of_get? hkeyword)
      rw [hnone] at hc
      cases hc
    · cases hkeyword
  · split at h
    · rename_i family value hlookup
      exact ⟨family, value, hlookup, setsColor_of_familyMeaning h hc⟩
    · cases h

end DesignTokens.Utility
