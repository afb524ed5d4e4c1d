import DesignTokens.Proofs.Css.Lengths
import DesignTokens.Proofs.Decimal.Places
import DesignTokens.Proofs.Utility.Grounded
import DesignTokens.Utility.Attempt

/-!
No step of parsing breaks. Wherever a step could break, what comes before it has made sure that it
does not, so that parsing step by step comes to what parsing gives: a style, and the warnings of the
tokens that are dropped.
-/
namespace DesignTokens.Utility.Attempt

open Text Decimal

variable {α β : Type} {s : String}

/-! ### Steps that do not break -/

@[simp] theorem drop_bind (reason : String) (f : α → Attempt β) :
    (drop reason >>= f : Attempt β) = .error (.dropped reason) := rfl

@[simp] theorem lift_ok (a : α) : (liftM (.ok a : Step α) : Attempt α) = .ok a := rfl

/-- A short number is an integer. -/
theorem toInt_of_isShortNumber {most : Nat} (h : isShortNumber most s)
    (hmost : most ≤ integerDigitLimit) : toInt s = .ok (numberOf s) := by
  obtain ⟨hdigits, hne, hlength⟩ := digits_of_isShortNumber h
  have hread := readInt?_figures hdigits hne (hlength.trans hmost) false
  rw [if_neg (by simp), String.ofList_toList] at hread
  rw [toInt, hread]
  rfl

/-- A short number is a float. -/
theorem readFloat?_of_isShortNumber (h : isShortNumber 3 s) :
    readFloat? s = some (Float.ofNat (numberOf s)) := by
  obtain ⟨hdigits, hne, hshort⟩ := digits_of_isShortNumber h
  have hread : Numeral.Readable ⟨s.toList, [], none⟩ := ⟨hdigits, by simp [Digits], hne⟩
  have hfloat := hread.readFloat? false
  have hchars : Numeral.chars ⟨s.toList, [], none⟩ = s.toList := by
    simp [Numeral.chars, Numeral.fractionChars, Numeral.exponentChars]
  have hvalue : Numeral.coefficient ⟨s.toList, [], none⟩ = numberOf s := by
    rw [Numeral.coefficient, List.append_nil, numberOf]
  have hlength : (Nat.toDigits 10 (numberOf s)).length ≤ 3 := by
    refine (Nat.length_toDigits_le_iff (by decide) (by decide)).mpr ?_
    calc numberOf s < (0 + 1) * 10 ^ s.toList.length := digitsFrom_lt hdigits 0
      _ ≤ (0 + 1) * 10 ^ 3 := Nat.mul_le_mul_left _ (Nat.pow_le_pow_right (by decide) hshort)
  rw [if_neg (by simp), hchars, String.ofList_toList, if_neg (by simp), hvalue] at hfloat
  rw [hfloat]
  exact congrArg some (ofDecimal_whole (hlength.trans (by decide)))

theorem entry_of_get? {name : String} {t : Table α} {v : α} (h : Table.get? name t = some v) :
    entry name t = .ok v := by
  rw [entry, h]

/-- A failed conversion leaves no number. -/
theorem caught_toFloat (s : String) : caught (toFloat s) = .ok (readFloat? s) := by
  rw [toFloat]
  cases readFloat? s <;> rfl

theorem caught_toInt (s : String) : caught (toInt s) = .ok (readInt? s) := by
  rw [toInt]
  cases readInt? s <;> rfl

theorem rounded_eq (x : Float) : rounded x 3 = .ok (roundPlaces x 3) := by
  refine if_neg ?_
  simp only [Bool.and_eq_true, Bool.not_eq_true', not_and, Bool.not_eq_false]
  exact fun hx => isFinite_roundPlaces hx (by decide)

/-! ### Values -/

/-- A length is a text in the form of one, whose number is read and put into px. -/
theorem parseLength_eq (text : String) (root : Float) :
    Css.parseLength text root = (lengthParts? text).bind fun p =>
      (readFloat? p.1).bind fun x => Css.inUnit p.2 x root := by
  have hunit : ∀ (unit : String) (x : Float), ["px", "rem", "em", ""].contains unit = false →
      Css.inUnit unit x root = none := by
    intro unit x hunit
    simp only [List.contains_cons, List.contains_nil, Bool.or_eq_false_iff] at hunit
    simp [Css.inUnit, hunit]
  have hbody : ∀ (sign number rest : List Char),
      (if number.isEmpty then none
        else (readFloat? (String.ofList (sign ++ number))).bind fun x =>
          Css.inUnit (String.ofList rest) x root) =
      (if !number.isEmpty && ["px", "rem", "em", ""].contains (String.ofList rest) then
          some (String.ofList (sign ++ number), String.ofList rest)
        else none).bind fun p => (readFloat? p.1).bind fun x => Css.inUnit p.2 x root := by
    intro sign number rest
    cases hnumber : number.isEmpty
    · cases hrest : ["px", "rem", "em", ""].contains (String.ofList rest)
      · simp [hunit _ _ hrest]
      · simp
    · simp
  simp only [Css.parseLength, lengthParts?, Option.bind_eq_bind, Option.bind_none]
  generalize (lower (trim text)).toList = cs
  split
  · exact hbody ['-'] _ _
  · rename_i hplain
    rw [takeNegative.eq_2 _ hplain]
    exact hbody [] _ _

/-- The number of a length is a float, and its unit is known. -/
theorem lengthParts?_eq_some {text number unit : String}
    (h : lengthParts? text = some (number, unit)) :
    (readFloat? number).isSome ∧ unit ∈ ["px", "rem", "em", ""] := by
  simp only [lengthParts?] at h
  generalize takeNegative (lower (trim text)).toList = p at h
  split at h
  · rename_i hform
    simp only [Bool.and_eq_true, Bool.not_eq_true', List.isEmpty_eq_false_iff,
      List.contains_iff_mem] at hform
    simp only [Option.some.injEq, Prod.mk.injEq] at h
    rw [← h.1, ← h.2]
    exact ⟨(Css.fixed_takeDecimal hform.1).isSome_readFloat? p.1, hform.2⟩
  · cases h

variable (scales : Theme.Scales) (settings : Settings)

theorem arbitraryLength_eq (text : String) :
    arbitraryLength settings text = .ok (Utility.arbitraryLength settings text) := by
  unfold Utility.arbitraryLength arbitraryLength
  simp only [parseLength_eq]
  generalize hparts : lengthParts? text = parts
  cases parts with
  | none => rfl
  | some p =>
    obtain ⟨hread, hunit⟩ : (readFloat? p.1).isSome ∧ p.2 ∈ ["px", "rem", "em", ""] :=
      lengthParts?_eq_some hparts
    obtain ⟨x, hx⟩ := Option.isSome_iff_exists.mp hread
    have hnumber : toFloat p.1 = .ok x := by
      rw [toFloat, hx]
    simp only [hnumber, rounded_eq, bind_ok, Option.bind_some, hx, Css.inUnit, Css.remToPx]
    by_cases hroot : (p.2 == "rem" || p.2 == "em") = true
    · simp only [hroot, if_true]
      rfl
    · have hplain : (p.2 == "px" || p.2 == "") = true := by
        simp_all
      simp only [hroot, hplain, if_true]
      rfl

theorem resolve_eq (s : Theme.SpacingScale) (key : String) :
    resolve s key = .ok (s.resolve key) := by
  unfold resolve Theme.SpacingScale.resolve
  rw [Table.has]
  cases hget : Table.get? key s.scale with
  | some px =>
    simp only [Option.isSome_some, if_true, entry_of_get? hget]
    rfl
  | none =>
    rw [caught_toFloat]
    cases readFloat? key with
    | none => rfl
    | some x =>
      simp only [Option.isSome_none, Bool.false_eq_true, if_false, rounded_eq, bind_ok,
        Option.bind_eq_bind, Option.bind_some]
      split <;> rfl

theorem spacingValue_eq (t : Token) (value : String) :
    spacingValue scales settings t value = .ok (Utility.spacingValue scales settings t value) := by
  unfold spacingValue Utility.spacingValue
  cases t.arbitrary with
  | some a => exact arbitraryLength_eq settings a
  | none =>
    dsimp only
    split
    · rfl
    · exact resolve_eq scales.spacing value

theorem radiusValue_eq (t : Token) (value : String) :
    radiusValue scales settings t value = .ok (Utility.radiusValue scales settings t value) := by
  unfold radiusValue Utility.radiusValue
  cases t.arbitrary with
  | some a => exact arbitraryLength_eq settings a
  | none =>
    dsimp only
    generalize (if value == "" then "DEFAULT" else value) = key
    rw [Table.has]
    cases hget : Table.get? key scales.borderRadius with
    | some px =>
      simp only [Option.isSome_some, if_true, entry_of_get? hget]
      rfl
    | none => rfl

theorem modifierOpacity_eq (t : Token) :
    modifierOpacity t = (Utility.modifierOpacity t).mapError .dropped := by
  unfold modifierOpacity Utility.modifierOpacity
  cases t.modifier with
  | none => rfl
  | some m =>
    dsimp only
    cases hshort : isShortNumber 3 m with
    | false => rfl
    | true =>
      simp only [toInt_of_isShortNumber hshort (by decide), Bool.not_true, Bool.false_eq_true,
        if_false, Bool.true_and, lift_ok, bind_ok]
      by_cases hle : numberOf m ≤ 100
      · rw [if_neg (by omega), if_pos (by simpa using hle)]
        rfl
      · rw [if_pos (by omega), if_neg (by simpa using hle)]
        rfl

theorem colorReference_eq (lead value : String) (t : Token) :
    colorReference lead value t = (Utility.colorReference lead value t).mapError .dropped := by
  unfold colorReference Utility.colorReference
  rw [modifierOpacity_eq]
  cases Utility.modifierOpacity t <;> rfl

/-! ### Families -/

section

variable (t : Token) (value : String)

/-- A step that only wraps the result of the one before it. -/
theorem bind_mapError (x : Except String α) (f : α → β) :
    (do return f (← x.mapError Stop.dropped) : Attempt β) = (x.map f).mapError .dropped := by
  cases x <;> rfl

theorem background_eq :
    background settings t value = (Utility.background settings t value).mapError .dropped := by
  unfold background Utility.background
  rw [colorReference_eq]
  split
  · rfl
  split
  · rfl
  split
  · rfl
  split
  · rfl
  · exact bind_mapError _ _

theorem text_eq :
    text scales settings t value = (Utility.text scales settings t value).mapError .dropped := by
  unfold text Utility.text Table.has
  split
  · rfl
  cases t.arbitrary with
  | some a =>
    simp only [arbitraryLength_eq, lift_ok, bind_ok]
    cases Utility.arbitraryLength settings a <;> rfl
  | none =>
    cases hsize : Table.get? value scales.fontSize with
    | some size =>
      rw [entry_of_get? hsize]
      rfl
    | none =>
      cases halign : Table.get? value textAlignments with
      | some a =>
        rw [entry_of_get? halign]
        rfl
      | none =>
        simp only [modifierOpacity_eq, colorReference_eq, Utility.textColor, Option.isSome_none,
          Bool.false_eq_true, if_false]
        split
        · rfl
        cases Utility.modifierOpacity t with
        | error reason => rfl
        | ok o =>
          simp only [bind_ok, Except.mapError]
          split
          · rfl
          split
          · rfl
          · cases Utility.colorReference settings.textLead value t <;> rfl

theorem strokeColor_eq :
    strokeColor settings t value = (Utility.strokeColor settings t value).mapError .dropped := by
  unfold strokeColor Utility.strokeColor
  rw [colorReference_eq]
  split <;> rfl

theorem border_eq :
    border settings t value = (Utility.border settings t value).mapError .dropped := by
  unfold border Utility.border Table.has
  rw [strokeColor_eq]
  split
  · rfl
  cases t.arbitrary with
  | some a =>
    simp only [arbitraryLength_eq, lift_ok, bind_ok]
    cases Utility.arbitraryLength settings a <;> rfl
  | none =>
    dsimp only
    split
    · rfl
    split
    · rename_i hshort
      simp only [toInt_of_isShortNumber hshort (by decide), lift_ok, bind_ok, Int.natCast_pos]
      rfl
    split
    · rfl
    cases hstyle : Table.get? value borderStyles with
    | some style =>
      rw [entry_of_get? hstyle]
      rfl
    | none => exact bind_mapError _ _

theorem sideBorder_eq (sides : List Side) : sideBorder settings sides t value =
    (Utility.sideBorder settings sides t value).mapError .dropped := by
  unfold sideBorder Utility.sideBorder
  rw [strokeColor_eq]
  split
  · rfl
  split
  · rfl
  by_cases hempty : value = ""
  · simp only [hempty, bne_self_eq_false, Bool.false_and, Bool.false_eq_true, ↓reduceIte, BEq.rfl]
    rfl
  · cases hshort : isShortNumber 2 value with
    | true =>
      rw [toInt_of_isShortNumber hshort (by decide)]
      simp only [Bool.not_true, Bool.and_false, Bool.false_eq_true, ↓reduceIte, beq_iff_eq, hempty,
        lift_ok, bind_pure_comp, Except.map_ok]
      rfl
    | false =>
      simp only [Bool.not_false, Bool.and_true, bne_iff_ne, ne_eq, hempty, not_false_eq_true,
        ↓reduceIte, bind_pure_comp, beq_iff_eq, Bool.false_eq_true]
      exact bind_mapError _ _

theorem ring_eq :
    ring settings t value = (Utility.ring settings t value).mapError .dropped := by
  unfold ring Utility.ring
  rw [strokeColor_eq]
  split
  · rfl
  split
  · rfl
  split
  · rfl
  split
  · rename_i hshort
    simp only [toInt_of_isShortNumber hshort (by decide), lift_ok, bind_ok, Int.natCast_pos]
    rfl
  split
  · rfl
  · exact bind_mapError _ (Update.ringColor · 1)

theorem spacing_eq (signed : Bool) (update : Number → Update Number) :
    spacing scales settings signed update t value =
      (Utility.spacing scales settings signed update t value).mapError .dropped := by
  unfold spacing Utility.spacing
  rw [spacingValue_eq]
  split
  · rfl
  split
  · rfl
  · cases Utility.spacingValue scales settings t value <;> rfl

theorem size_eq (parts : List SizePart) : size scales settings parts t value =
    (Utility.size scales settings parts t value).mapError .dropped := by
  unfold size Utility.size
  rw [spacingValue_eq]
  split
  · rfl
  · cases Utility.spacingValue scales settings t value <;> rfl

theorem radius_eq (part : RadiusPart) : radius scales settings part t value =
    (Utility.radius scales settings part t value).mapError .dropped := by
  unfold radius Utility.radius
  rw [radiusValue_eq]
  split
  · rfl
  · cases Utility.radiusValue scales settings t value <;> rfl

theorem font_eq : font scales t value = (Utility.font scales t value).mapError .dropped := by
  unfold font Utility.font Table.has
  cases t.arbitrary with
  | some a =>
    simp only [caught_toInt, lift_ok, bind_ok]
    cases readInt? a <;> rfl
  | none =>
    cases hweight : Table.get? value scales.fontWeight with
    | some weight =>
      rw [entry_of_get? hweight]
      rfl
    | none => rfl

theorem leading_eq :
    leading scales settings t value = (Utility.leading scales settings t value).mapError .dropped := by
  unfold leading Utility.leading
  rw [spacingValue_eq]
  cases Utility.spacingValue scales settings t value <;> rfl

theorem opacity_eq : opacity t value = (Utility.opacity t value).mapError .dropped := by
  unfold opacity Utility.opacity opacityInRange
  cases t.arbitrary with
  | some a =>
    simp only [caught_toFloat, Option.isNone_some, Bool.false_and, Bool.false_eq_true, if_false,
      Option.getD_some, Option.isSome_some, if_true, lift_ok, bind_ok]
    cases readFloat? a with
    | none => rfl
    | some x =>
      dsimp only
      split <;> rfl
  | none =>
    cases hshort : isShortNumber 3 value with
    | false => rfl
    | true =>
      simp only [caught_toFloat, readFloat?_of_isShortNumber hshort, Option.getD_none,
        Option.isSome_none, Bool.not_true, Bool.and_false, Bool.false_eq_true, if_false, if_true,
        lift_ok, bind_ok]
      split <;> rfl

theorem shadow_eq : shadow scales t value = (Utility.shadow scales t value).mapError .dropped := by
  unfold shadow Utility.shadow
  split
  · rfl
  split
  · rfl
  · dsimp only
    cases Table.get? _ scales.shadows <;> rfl

theorem family_eq (f : Family) : family scales settings t value f =
    (familyMeaning scales settings t value f).mapError .dropped := by
  cases f with
  | background => exact background_eq settings t value
  | text => exact text_eq scales settings t value
  | border => exact border_eq settings t value
  | borderSides sides => exact sideBorder_eq settings t value sides
  | ring => exact ring_eq settings t value
  | radius part => exact radius_eq scales settings t value part
  | shadow => exact shadow_eq scales t value
  | font => exact font_eq scales t value
  | leading => exact leading_eq scales settings t value
  | opacity => exact opacity_eq t value
  | padding part => exact spacing_eq scales settings t value false _
  | margin part => exact spacing_eq scales settings t value true _
  | gap part => exact spacing_eq scales settings t value false _
  | size parts => exact size_eq scales settings t value parts

end

end DesignTokens.Utility.Attempt
