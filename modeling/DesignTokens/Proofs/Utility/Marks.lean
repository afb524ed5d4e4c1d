import DesignTokens.Proofs.Utility.Colors
import DesignTokens.Proofs.Utility.Updates

/-!
Signs and modifiers. What a token means is what it means without them, put through the one and the
other. A sign negates a margin, and a percentage is added to a colour; but layout keywords, fonts,
line heights, opacities and shadows look at neither, and what a background, text, border or ring
utility sets besides a colour does not look at a modifier. Everything else refuses the mark.
-/
namespace DesignTokens.Utility

variable (scales : Theme.Scales) (settings : Settings) {t : Token} {value : String}

/-! ### Marks and updates -/

/-- A token without its sign and its modifier. -/
def Token.bare (t : Token) : Token := { t with negative := false, modifier := none }

@[simp] theorem bare_arbitrary (t : Token) : t.bare.arbitrary = t.arbitrary := rfl
@[simp] theorem bare_negative (t : Token) : t.bare.negative = false := rfl
@[simp] theorem bare_modifier (t : Token) : t.bare.modifier = none := rfl

/-- The opacity of a percentage. -/
def percentage? (m : String) : Option Number :=
  if isShortNumber 3 m && decide (numberOf m ≤ 100) then
    some (.float (Float.ofNat (numberOf m) / 100))
  else none

/-- A colour at a percentage, which becomes a part of its variable's name. -/
def ColorReference.at? (m : String) (c : ColorReference Number) : Option (ColorReference Number) :=
  (percentage? m).map fun o => ⟨c.variableName ++ "/" ++ m, some o⟩

/-- What a sign makes of an update: it negates a margin, and what does not look at it stays. -/
def Update.negated? : Update Number → Option (Update Number)
  | .margin part (.float px) => some (.margin part (.float (-px)))
  | u@(.layoutMode _) | u@(.wrap _) | u@.grow | u@(.alignItems _) | u@(.justifyContent _)
  | u@(.fontWeight _) | u@(.lineHeight _) | u@(.opacity _) | u@(.shadow ..) => some u
  | _ => none

/-- What a modifier makes of an update: a percentage is added to a colour, lengths refuse it, and what
does not look at it stays. -/
def Update.modified? (m : String) : Update Number → Option (Update Number)
  | .fill c => (c.at? m).map .fill
  | .textColor c => (c.at? m).map .textColor
  | .strokeColor c => (c.at? m).map .strokeColor
  | .ringColor c weight => (c.at? m).map (.ringColor · weight)
  | .whiteText _ => (percentage? m).map fun o => .whiteText (some o)
  | .padding .. | .margin .. | .gap .. | .size .. | .radius .. => none
  | u => some u

/-- What both marks make of an update. -/
def Update.marked? (negative : Bool) (modifier : Option String) (u : Update Number) :
    Option (Update Number) :=
  (if negative then u.negated? else some u).bind fun u =>
    match modifier with
    | some m => u.modified? m
    | none => some u

/-- One meaning is another one, put through a change that may refuse it. -/
def Follows (f : Update Number → Option (Update Number)) (x y : Meaning) : Prop :=
  y.toOption = x.toOption.bind f

section

variable {f : Update Number → Option (Update Number)} {x x' y y' : Meaning}

theorem Follows.error {reason reason' : String} : Follows f (.error reason) (.error reason') := rfl

theorem Follows.ok {u w : Update Number} (h : f u = some w) : Follows f (.ok u) (.ok w) := h.symm

theorem Follows.dropped {u : Update Number} {reason : String} (h : f u = none) :
    Follows f (.ok u) (.error reason) := h.symm

theorem Follows.ite_error {p : Prop} [Decidable p] {reason : String}
    (h : Follows f x (.error reason)) (h' : Follows f x' (.error reason)) :
    Follows f (if p then x else x') (.error reason) := by
  split
  · exact h
  · exact h'

theorem Follows.ite {p : Prop} [Decidable p] (h : Follows f x y) (h' : Follows f x' y') :
    Follows f (if p then x else x') (if p then y else y') := by
  split
  · exact h
  · exact h'

/-- Every update is refused. -/
theorem Follows.refused {reason : String} (h : ∀ u, x = .ok u → f u = none) :
    Follows f x (.error reason) := by
  cases x with
  | error reason => rfl
  | ok u => exact (h u rfl).symm

/-- No update is changed. -/
theorem Follows.kept (h : ∀ u, x = .ok u → f u = some u) : Follows f x x := by
  cases x with
  | error reason => rfl
  | ok u => exact (h u rfl).symm

end

theorem bare_of_unmarked (hpositive : t.negative = false) (hplain : t.modifier = none) :
    t.bare = t := by
  rw [Token.bare, ← hpositive, ← hplain]

/-! ### Colours -/

section

variable {m : String} (hm : t.modifier = some m)
include hm

theorem toOption_modifierOpacity : (modifierOpacity t).toOption = (percentage? m).map some := by
  rw [modifierOpacity, hm]
  dsimp only [percentage?]
  split <;> rfl

theorem toOption_colorReference (lead : String) :
    (colorReference lead value t).toOption = ColorReference.at? m ⟨lead ++ value, none⟩ := by
  rw [colorReference, toOption_bind, toOption_modifierOpacity hm, hm, Option.bind_map]
  dsimp only [ColorReference.at?]
  cases percentage? m <;> rfl

/-- A colour with a modifier is the colour without it, put through the modifier. -/
theorem color_modified {f : ColorReference Number → Update Number}
    (hf : ∀ c, (f c).modified? m = (c.at? m).map f) (lead : String) :
    Follows (·.modified? m) ((colorReference lead value t.bare).map f)
      ((colorReference lead value t).map f) := by
  rw [Follows, toOption_map, toOption_colorReference hm]
  exact (hf _).symm

theorem strokeColor_modified {f : ColorReference Number → Update Number}
    (hf : ∀ c, (f c).modified? m = (c.at? m).map f) :
    Follows (·.modified? m) ((strokeColor settings t.bare value).map f)
      ((strokeColor settings t value).map f) := by
  rw [strokeColor, strokeColor]
  split
  · exact .error
  · exact color_modified hm hf _

theorem textColor_modified :
    Follows (·.modified? m) (textColor settings t.bare value) (textColor settings t value) := by
  have hopacity := toOption_modifierOpacity hm
  rw [textColor, textColor]
  refine .ite .error ?_
  cases ho : percentage? m with
  | some o =>
    have hok : modifierOpacity t = .ok (some o) := by
      rw [ho] at hopacity
      exact toOption_eq_some.mp hopacity
    have hwhite : (Update.whiteText none).modified? m = some (.whiteText (some o)) := by
      rw [Update.modified?, ho]
      rfl
    rw [hok]
    refine .ite (.ok hwhite) <| .ite .error ?_
    have hmap : ∀ x : Except String (ColorReference Number),
        (do return Update.textColor (← x)) = x.map .textColor := by
      intro x
      cases x <;> rfl
    dsimp only
    rw [hmap, hmap]
    exact color_modified (f := .textColor) hm (fun _ => rfl) _
  | none =>
    -- A modifier that is no percentage is refused before the colour is looked at.
    have hwhite : (Update.whiteText none).modified? m = none := by rw [Update.modified?, ho]; rfl
    have hcolor : ∀ c, (Update.textColor c).modified? m = none := by
      intro c
      rw [Update.modified?, ColorReference.at?, ho]
      rfl
    cases hreason : modifierOpacity t with
    | ok o' =>
      rw [hreason, ho] at hopacity
      cases hopacity
    | error reason =>
      exact .ite_error (.dropped hwhite) <| .ite_error .error (.dropped (hcolor _))

variable (hpositive : t.negative = false)
include hpositive

theorem background_modified :
    Follows (·.modified? m) (background settings t.bare value) (background settings t value) := by
  rw [background, background, hpositive, bare_arbitrary, bare_negative]
  exact .ite .error <| .ite .error <| .ite (.ok rfl) <| .ite .error <|
    color_modified (f := .fill) hm (fun _ => rfl) _

theorem text_modified :
    Follows (·.modified? m) (text scales settings t.bare value) (text scales settings t value) := by
  rw [text, text, hpositive, bare_arbitrary, bare_negative]
  refine .ite .error ?_
  cases t.arbitrary with
  | some a =>
    dsimp only
    cases arbitraryLength settings a with
    | some size => exact .ok rfl
    | none => exact .error
  | none =>
    cases Table.get? value scales.fontSize with
    | some size => exact .ok rfl
    | none =>
      cases Table.get? value textAlignments with
      | some a => exact .ok rfl
      | none => exact textColor_modified settings hm

theorem border_modified :
    Follows (·.modified? m) (border settings t.bare value) (border settings t value) := by
  rw [border, border, hpositive, bare_arbitrary, bare_negative]
  refine .ite .error ?_
  cases t.arbitrary with
  | some a =>
    dsimp only
    cases arbitraryLength settings a with
    | some weight => exact .ok rfl
    | none => exact .error
  | none =>
    refine .ite (.ok rfl) <| .ite (.ok rfl) <| .ite (.ok rfl) ?_
    cases Table.get? value borderStyles with
    | some style => exact .ok rfl
    | none => exact strokeColor_modified (f := .strokeColor) settings hm fun _ => rfl

theorem sideBorder_modified (sides : List Side) :
    Follows (·.modified? m) (sideBorder settings sides t.bare value)
      (sideBorder settings sides t value) := by
  rw [sideBorder, sideBorder, hpositive, bare_arbitrary, bare_negative]
  exact .ite .error <| .ite .error <| .ite (.ok rfl) <| .ite (.ok rfl) <|
    strokeColor_modified (f := .strokeColor) settings hm fun _ => rfl

theorem ring_modified :
    Follows (·.modified? m) (ring settings t.bare value) (ring settings t value) := by
  rw [ring, ring, hpositive, bare_arbitrary, bare_negative]
  exact .ite .error <| .ite .error <| .ite (.ok rfl) <| .ite (.ok rfl) <| .ite .error <|
    strokeColor_modified (f := (.ringColor · 1)) settings hm fun _ => rfl

end

/-! ### Families -/

/-- An update that looks at neither mark. -/
def Update.isHeedless : Update Number → Bool
  | .layoutMode _ | .wrap _ | .grow | .alignItems _ | .justifyContent _ | .fontWeight _
  | .lineHeight _ | .opacity _ | .shadow .. => true
  | _ => false

theorem marked?_of_isHeedless {u : Update Number} (h : u.isHeedless) (negative : Bool)
    (modifier : Option String) : u.marked? negative modifier = some u := by
  cases u
  case layoutMode | wrap | grow | alignItems | justifyContent | fontWeight | lineHeight | opacity
      | shadow => cases negative <;> cases modifier <;> rfl
  all_goals cases h

/-- A family whose utilities look at neither mark. -/
def Family.isHeedless : Family → Bool
  | .font | .leading | .opacity | .shadow => true
  | _ => false

/-- A family whose utilities refuse a sign. -/
def Family.refusesSign : Family → Bool
  | .margin _ => false
  | family => !family.isHeedless

/-- A family whose utilities refuse a modifier. -/
def Family.refusesModifier : Family → Bool
  | .radius _ | .padding _ | .margin _ | .gap _ | .size _ => true
  | _ => false

section

variable {family : Family} {u : Update Number}

theorem isHeedless_of_yields (h : family.Yields u) (hfamily : family.isHeedless) :
    u.isHeedless := by
  cases h <;> first | rfl | cases hfamily

theorem negated?_of_yields (h : family.Yields u) (hfamily : family.refusesSign) :
    u.negated? = none := by
  cases h <;> first | rfl | cases hfamily

theorem modified?_of_yields (h : family.Yields u) (hfamily : family.refusesModifier) (m : String) :
    u.modified? m = none := by
  cases h <;> first | rfl | cases hfamily

theorem familyMeaning_bare (hfamily : family.isHeedless) :
    familyMeaning scales settings t.bare value family =
      familyMeaning scales settings t value family := by
  cases family <;> first | rfl | cases hfamily

theorem exists_error_of_negative (hfamily : family.refusesSign) (hnegative : t.negative = true) :
    ∃ reason, familyMeaning scales settings t value family = .error reason := by
  cases family
  case background =>
    rw [familyMeaning, background, hnegative]
    split
    · exact ⟨_, rfl⟩
    · exact ⟨_, rfl⟩
  case text | border | borderSides | ring | radius | padding | gap | size =>
    simp [familyMeaning, text, border, sideBorder, ring, radius, spacing, size, hnegative]
  all_goals cases hfamily

theorem exists_error_of_modifier (hfamily : family.refusesModifier) {m : String}
    (hm : t.modifier = some m) :
    ∃ reason, familyMeaning scales settings t value family = .error reason := by
  cases family
  case radius | size => simp [familyMeaning, radius, size, hm]
  case padding | margin | gap =>
    simp only [familyMeaning, spacing, hm]
    split
    · exact ⟨_, rfl⟩
    · exact ⟨_, rfl⟩
  all_goals cases hfamily

end

theorem familyMeaning_modified {m : String} (hm : t.modifier = some m)
    (hpositive : t.negative = false) (family : Family) : Follows (·.modified? m)
      (familyMeaning scales settings t.bare value family)
      (familyMeaning scales settings t value family) := by
  by_cases hrefuses : family.refusesModifier
  · obtain ⟨reason, hreason⟩ := exists_error_of_modifier scales settings hrefuses hm
    rw [hreason]
    exact .refused fun u hu => modified?_of_yields (familyMeaning_yields hu) hrefuses m
  by_cases hheedless : family.isHeedless
  · rw [familyMeaning_bare scales settings hheedless]
    refine .kept fun u hu => ?_
    exact marked?_of_isHeedless (isHeedless_of_yields (familyMeaning_yields hu) hheedless) false m
  cases family
  case background => exact background_modified settings hm hpositive
  case text => exact text_modified scales settings hm hpositive
  case border => exact border_modified settings hm hpositive
  case borderSides sides => exact sideBorder_modified settings hm hpositive sides
  case ring => exact ring_modified settings hm hpositive
  case font | leading | opacity | shadow => exact absurd rfl hheedless
  all_goals exact absurd rfl hrefuses

/-- A margin is negated, unless it has a modifier. -/
theorem margin_negated (hnegative : t.negative = true) (part : BoxPart) :
    Follows (·.marked? true t.modifier)
      (familyMeaning scales settings t.bare value (.margin part))
      (familyMeaning scales settings t value (.margin part)) := by
  cases hm : t.modifier with
  | some m =>
    have hrefuses : (Family.margin part).refusesModifier := rfl
    obtain ⟨reason, hreason⟩ := exists_error_of_modifier scales settings hrefuses hm
    rw [hreason]
    refine .refused fun u hu => ?_
    cases familyMeaning_yields hu
    rfl
  | none =>
    have hvalue : spacingValue scales settings t.bare value = spacingValue scales settings t value :=
      rfl
    simp only [familyMeaning, spacing, hnegative, hm, bare_negative, bare_modifier, hvalue]
    cases spacingValue scales settings t value with
    | some px => exact .ok rfl
    | none => exact .error

theorem familyMeaning_negated (hnegative : t.negative = true) (family : Family) :
    Follows (·.marked? true t.modifier)
      (familyMeaning scales settings t.bare value family)
      (familyMeaning scales settings t value family) := by
  by_cases hrefuses : family.refusesSign
  · obtain ⟨reason, hreason⟩ := exists_error_of_negative scales settings hrefuses hnegative
    rw [hreason]
    refine .refused fun u hu => ?_
    rw [Update.marked?, if_pos rfl, negated?_of_yields (familyMeaning_yields hu) hrefuses]
    rfl
  by_cases hheedless : family.isHeedless
  · rw [familyMeaning_bare scales settings hheedless]
    refine .kept fun u hu => ?_
    exact marked?_of_isHeedless (isHeedless_of_yields (familyMeaning_yields hu) hheedless) true _
  cases family
  case margin part => exact margin_negated scales settings hnegative part
  case font | leading | opacity | shadow => exact absurd rfl hheedless
  all_goals exact absurd rfl hrefuses

/-- What a value means within a family follows from what it means without the marks. -/
theorem familyMeaning_marked (family : Family) : Follows (·.marked? t.negative t.modifier)
    (familyMeaning scales settings t.bare value family)
    (familyMeaning scales settings t value family) := by
  cases hnegative : t.negative with
  | true => exact familyMeaning_negated scales settings hnegative family
  | false =>
    cases hm : t.modifier with
    | some m => exact familyMeaning_modified scales settings hm hnegative family
    | none =>
      rw [bare_of_unmarked hnegative hm]
      exact .kept fun _ _ => rfl

theorem isHeedless_layoutKeywords : ∀ p ∈ layoutKeywords, p.2.isHeedless := by
  simp [layoutKeywords, Update.isHeedless]

/-- What a token means follows from what it means without the marks. -/
theorem utilityMeaning_marked : Follows (·.marked? t.negative t.modifier)
    (utilityMeaning scales settings t.bare) (utilityMeaning scales settings t) := by
  have hutility : t.bare.utility = t.utility := rfl
  rw [utilityMeaning, utilityMeaning, bare_arbitrary, hutility]
  split
  · rename_i u hkeyword
    refine .ok (marked?_of_isHeedless ?_ _ _)
    split at hkeyword
    · exact isHeedless_layoutKeywords _ (Table.mem_of_get? hkeyword)
    · cases hkeyword
  · cases lookup? vocabulary t.utility with
    | some found => exact familyMeaning_marked scales settings found.1
    | none => exact .error

/-! ### Applied tokens -/

/-- The update that an outcome makes, of the base style or of a state. -/
def Outcome.update? : Outcome → Option (Update Number)
  | .base u | .state _ u => some u
  | .dropped _ => none

/-- Whether a token is well formed, and has no variant or that of a state. -/
def admits (settings : Settings) (t : Token) : Bool :=
  !t.malformed && match t.variants with
    | [] => true
    | [v] => settings.stateVariants.contains v
    | _ => false

theorem update?_eq : (outcome scales settings t).update? =
    if admits settings t then (utilityMeaning scales settings t).toOption else none := by
  cases hm : t.malformed with
  | true => simp [outcome, admits, hm, Outcome.update?]
  | false =>
    rcases hv : t.variants with _ | ⟨v, _ | ⟨w, vs⟩⟩
    · cases hu : utilityMeaning scales settings t <;>
        simp [outcome, admits, hm, hv, hu, Outcome.update?, Except.toOption]
    · by_cases hs : v ∈ settings.stateVariants <;>
        cases hu : utilityMeaning scales settings t <;>
          simp [outcome, admits, hm, hv, hu, hs, Outcome.update?, Except.toOption]
    · simp [outcome, admits, hm, hv, Outcome.update?]

/-- A token makes the update that it makes without the marks, put through these. -/
theorem update?_outcome : (outcome scales settings t).update? =
    (outcome scales settings t.bare).update?.bind (·.marked? t.negative t.modifier) := by
  have hadmits : admits settings t.bare = admits settings t := rfl
  rw [update?_eq, update?_eq, hadmits]
  split
  · exact utilityMeaning_marked scales settings
  · rfl

/-- An update of a colour. -/
def Update.isColor : Update Number → Bool
  | .fill _ | .textColor _ | .strokeColor _ | .ringColor .. | .whiteText _ => true
  | _ => false

/-- An update that does not look at a modifier: a heedless one, or one of the other updates of the
utilities that have colours. -/
def Update.keepsModifier : Update Number → Bool
  | .noFill | .fontSize _ | .textAlign _ | .borderWeight _ | .border .. | .noBorder _
  | .borderStyle .. | .borderSides .. | .ring .. => true
  | u => u.isHeedless

theorem keepsModifier_of_isHeedless {u : Update Number} (h : u.isHeedless) : u.keepsModifier := by
  cases u <;> first | rfl | cases h

/-- A sign that is not refused negates a margin without a modifier, or is not looked at. -/
theorem negated_of_marked? {plain u : Update Number} {modifier : Option String}
    (h : plain.marked? true modifier = some u) : plain = u ∧ u.isHeedless ∨
      ∃ part px, plain = .margin part (.float px) ∧ u = .margin part (.float (-px)) := by
  by_cases hheedless : plain.isHeedless
  · obtain rfl := Option.some.inj ((marked?_of_isHeedless hheedless _ _).symm.trans h)
    exact .inl ⟨rfl, hheedless⟩
  cases plain
  case margin part px =>
    cases px with
    | int | overflow => cases h
    | float px =>
      cases modifier with
      | some m => cases h
      | none => exact .inr ⟨part, px, rfl, (Option.some.inj h).symm⟩
  case layoutMode | wrap | grow | alignItems | justifyContent | fontWeight | lineHeight | opacity
      | shadow => exact absurd rfl hheedless
  all_goals cases h

theorem modified?_eq_some {plain u : Update Number} {m : String} (h : plain.modified? m = some u) :
    plain = u ∧ u.keepsModifier ∨ u.isColor ∧ ∃ o, percentage? m = some o := by
  cases plain
  case fill | textColor | strokeColor | ringColor =>
    obtain ⟨c, hc, rfl⟩ := Option.map_eq_some_iff.mp h
    obtain ⟨o, ho, -⟩ := Option.map_eq_some_iff.mp hc
    exact .inr ⟨rfl, o, ho⟩
  case whiteText =>
    obtain ⟨o, ho, rfl⟩ := Option.map_eq_some_iff.mp h
    exact .inr ⟨rfl, o, ho⟩
  case padding | margin | gap | size | radius => cases h
  all_goals
    obtain rfl := Option.some.inj h
    exact .inl ⟨rfl, rfl⟩

/-- A modifier that is not refused is the percentage of a colour, or is not looked at. -/
theorem modified_of_marked? {plain u : Update Number} {negative : Bool} {m : String}
    (h : plain.marked? negative (some m) = some u) :
    plain = u ∧ u.keepsModifier ∨ u.isColor ∧ ∃ o, percentage? m = some o := by
  cases negative with
  | false => exact modified?_eq_some h
  | true =>
    rcases negated_of_marked? h with ⟨rfl, hheedless⟩ | ⟨part, px, rfl, rfl⟩
    · exact .inl ⟨rfl, keepsModifier_of_isHeedless hheedless⟩
    · cases h

/-- The update of each token of a class string is the one it makes without its sign and its modifier,
put through these. So a sign that is applied negates a margin, and a modifier that is applied is the
percentage of a colour; or else the update does not look at the mark and is made as if there were
none. A token that makes no update leaves a warning and nothing else. -/
theorem update?_of_mem_tokens {classes : String} (ht : t ∈ tokens classes) :
    (outcome scales settings t).update? =
      (outcome scales settings t.bare).update?.bind (·.marked? t.negative t.modifier) ∧
    (∀ u, (outcome scales settings t).update? = some u →
      (t.negative = true →
        (outcome scales settings t.bare).update? = some u ∧ u.isHeedless ∨
          ∃ part px, (outcome scales settings t.bare).update? = some (.margin part (.float px)) ∧
            u = .margin part (.float (-px))) ∧
      ∀ m, t.modifier = some m →
        (outcome scales settings t.bare).update? = some u ∧ u.keepsModifier ∨
          u.isColor ∧ ∃ o, percentage? m = some o) ∧
    ((outcome scales settings t).update? = none →
      (∀ a, (outcome scales settings t).apply a = a) ∧
        ∃ w ∈ (parse scales settings classes).warnings, w.token = t.raw) := by
  refine ⟨update?_outcome scales settings, fun u hu => ?_, fun hnone => ?_⟩
  · rw [update?_outcome] at hu
    obtain ⟨plain, hplain, hmarked⟩ := Option.bind_eq_some_iff.mp hu
    refine ⟨fun hnegative => ?_, fun m hm => ?_⟩
    · rw [hnegative] at hmarked
      rcases negated_of_marked? hmarked with ⟨rfl, hheedless⟩ | ⟨part, px, rfl, rfl⟩
      · exact .inl ⟨hplain, hheedless⟩
      · exact .inr ⟨part, px, hplain, rfl⟩
    · rw [hm] at hmarked
      rcases modified_of_marked? hmarked with ⟨rfl, hkeeps⟩ | hcolor
      · exact .inl ⟨hplain, hkeeps⟩
      · exact .inr hcolor
  · cases ho : outcome scales settings t with
    | base u | state v u =>
      rw [ho] at hnone
      cases hnone
    | dropped reason =>
      refine ⟨fun a => rfl, ⟨t.raw, reason⟩, ?_, rfl⟩
      refine List.mem_filterMap.mpr ⟨t, ht, ?_⟩
      rw [ho]
      rfl

/-- A margin of one pixel is negated. -/
theorem update?_of_mem_tokens_margin : Token.ofString "-mt-px" ∈ tokens "-mt-px" ∧
    ∃ part px, (outcome .plain {} (Token.ofString "-mt-px").bare).update? =
        some (.margin part (.float px)) ∧
      (outcome .plain {} (Token.ofString "-mt-px")).update? = some (.margin part (.float (-px))) := by
  have hmem : Token.ofString "-mt-px" ∈ tokens "-mt-px" := List.mem_cons_self
  have hupdate : (outcome .plain {} (Token.ofString "-mt-px")).update? =
      some (.margin (.side .top) (.float (-1))) := rfl
  obtain ⟨-, happlied, -⟩ := update?_of_mem_tokens .plain {} hmem
  refine ⟨hmem, ?_⟩
  rcases (happlied _ hupdate).1 rfl with ⟨-, hheedless⟩ | ⟨part, px, hbare, hnegated⟩
  · cases hheedless
  · exact ⟨part, px, hbare, hnegated ▸ hupdate⟩

/-- A sign before a layout keyword and a modifier after an alignment are not looked at: both words are
applied, without a warning. -/
theorem marks_not_looked_at :
    (Token.ofString "-flex").negative = true ∧
    outcome .plain {} (Token.ofString "-flex") = .base (.layoutMode .horizontal) ∧
    (Token.ofString "text-center/9").modifier = some "9" ∧
    outcome .plain {} (Token.ofString "text-center/9") = .base (.textAlign .center) ∧
    (parse .plain {} "-flex text-center/9").warnings = [] := by
  have hflex : outcome .plain {} (Token.ofString "-flex") = .base (.layoutMode .horizontal) := rfl
  have hcenter : outcome .plain {} (Token.ofString "text-center/9") = .base (.textAlign .center) :=
    rfl
  have htokens : tokens "-flex text-center/9" =
      [Token.ofString "-flex", Token.ofString "text-center/9"] := by decide +kernel
  refine ⟨by decide, hflex, by decide, hcenter, ?_⟩
  rw [parse]
  dsimp only
  rw [htokens, warningsOf, List.filterMap_cons, hflex, List.filterMap_cons, hcenter]
  rfl

end DesignTokens.Utility
