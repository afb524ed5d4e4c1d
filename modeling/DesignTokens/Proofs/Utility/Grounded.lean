import DesignTokens.Proofs.Decimal.Digits
import DesignTokens.Proofs.Utility.Coherent
import DesignTokens.Proofs.Utility.Longest
import DesignTokens.Proofs.Utility.Meanings

/-!
What class strings are parsed to is coherent, in the base style and in every state. Each token says
what is true of the theme and the settings; what the styles hold then follows by a run of updates.
-/
namespace DesignTokens.Utility

variable {scales : Theme.Scales} {settings : Settings} {t : Token} {value : String}
  {u : Update Number}

/-! ### Slashes in tokens -/

/-- A text without opening brackets that is not split has no separator. -/
theorem not_mem_of_splitFrom {sep : Char} {part cs p : List Char} (hbracket : '[' ∉ cs)
    (h : splitFrom sep 0 part cs = [p]) : sep ∉ cs := by
  induction cs generalizing part with
  | nil => exact List.not_mem_nil
  | cons c cs ih =>
    obtain ⟨hc, hcs⟩ := not_or.mp (mt List.mem_cons.mpr hbracket)
    have hdepth : bracketDepth 0 c = 0 := by
      simp [bracketDepth, Ne.symm hc]
    rw [splitFrom, hdepth] at h
    by_cases hsep : c = sep
    · simp [hsep, splitFrom_ne_nil] at h
    · rw [if_neg (by simp [hsep])] at h
      exact mt List.mem_cons.mp (not_or.mpr ⟨Ne.symm hsep, ih hcs h⟩)

theorem takeModifier_eq_none {cs name : List Char} (h : takeModifier cs = (name, none)) :
    name = cs ∧ ∃ p, splitOutside '/' cs = [p] := by
  simp only [takeModifier] at h
  split at h
  · cases h
  · rename_i hparts
    refine ⟨(Prod.mk.inj h).1.symm, ?_⟩
    rcases hsplit : splitOutside '/' cs with _ | ⟨p, _ | ⟨q, ps⟩⟩
    · exact absurd hsplit (splitFrom_ne_nil _ _ _ _)
    · exact ⟨p, rfl⟩
    · obtain ⟨m, n, ns, hm⟩ : ∃ m n ns, (p :: q :: ps).reverse = m :: n :: ns := by
        rcases hr : (p :: q :: ps).reverse with _ | ⟨m, _ | ⟨n, ns⟩⟩
        · simp at hr
        · have := congrArg List.length hr
          simp at this
        · exact ⟨m, n, ns, rfl⟩
      exact absurd (hsplit ▸ hm) (hparts m n ns)

/-- A utility without a modifier and without a bracketed value has no slash. -/
theorem slash_not_mem_utility {raw : List Char} (hformed : (Token.ofChars raw).malformed = false)
    (harbitrary : (Token.ofChars raw).arbitrary = none)
    (hmodifier : (Token.ofChars raw).modifier = none) :
    '/' ∉ (Token.ofChars raw).utility.toList := by
  simp only [Token.ofChars] at hformed harbitrary hmodifier ⊢
  generalize (takeNegative _).2 = base at *
  rcases hbase : takeModifier base with ⟨name, modifier⟩
  rw [hbase] at hformed harbitrary hmodifier
  obtain rfl : modifier = none := by simpa using hmodifier
  obtain ⟨rfl, p, hp⟩ := takeModifier_eq_none hbase
  cases hbrackets : takeBrackets name with
  | absent =>
    have hopening : '[' ∉ name := by
      intro hmem
      simp only [takeBrackets] at hbrackets
      split at hbrackets
      · simp_all
      · repeat' split at hbrackets
        all_goals cases hbrackets
    simpa using not_mem_of_splitFrom hopening hp
  | value utility content => simp [hbrackets] at harbitrary
  | misplaced => simp [hbrackets] at hformed

/-! ### Colours -/

/-- A colour token is a namespace, a hyphen and a name. -/
theorem exists_of_isColor (h : settings.isColor value = true) :
    ∃ space ∈ settings.colorNamespaces, ∃ name, name ≠ "" ∧ value = space ++ "-" ++ name := by
  obtain ⟨space, hspace, hvalue⟩ := List.any_eq_true.mp h
  simp only [Bool.and_eq_true, decide_eq_true_eq, Text.startsWith,
    List.isPrefixOf_iff_prefix] at hvalue
  obtain ⟨⟨rest, hrest⟩, hlength⟩ := hvalue
  refine ⟨space, hspace, String.ofList rest, ?_, ?_⟩
  · intro hempty
    obtain rfl : rest = [] := by simpa using hempty
    have hsame := congrArg List.length hrest
    have hhyphen : "-".length = 1 := rfl
    simp only [List.append_nil, String.length_toList, String.length_append, hhyphen] at hsame
    omega
  · rw [← String.toList_inj, ← hrest]
    simp

/-- A short number is made of digits. -/
theorem digits_of_isShortNumber {most : Nat} {s : String} (h : isShortNumber most s) :
    Decimal.Digits s.toList ∧ s.toList ≠ [] ∧ s.toList.length ≤ most := by
  simp only [isShortNumber, Bool.and_eq_true, Bool.not_eq_true', decide_eq_true_eq] at h
  obtain ⟨⟨hne, hlength⟩, hdigits⟩ := h
  rw [String.all_bool_eq] at hdigits
  refine ⟨List.all_eq_true.mp hdigits, ?_, ?_⟩
  · intro hnil
    simp_all
  · rwa [String.length_toList]

/-- A modifier that is no percentage is refused. -/
theorem modifierOpacity_eq_ok {o : Option Number} (h : modifierOpacity t = .ok o) :
    t.modifier = none ∧ o = none ∨
      ∃ digits, t.modifier = some digits ∧ IsPercentage digits ∧
        o = some (.float (Float.ofNat (numberOf digits) / 100)) := by
  simp only [modifierOpacity] at h
  split at h
  · rename_i hmodifier
    exact .inl ⟨hmodifier, (Except.ok.inj h).symm⟩
  · rename_i digits hmodifier
    split at h
    · rename_i hdigits
      simp only [Bool.and_eq_true, decide_eq_true_eq] at hdigits
      exact .inr ⟨digits, hmodifier, ⟨hdigits.1, hdigits.2⟩, (Except.ok.inj h).symm⟩
    · cases h

/-- Every whole percentage is a fraction. -/
theorem isFraction_percentage {n : Nat} (h : n ≤ 100) :
    (Number.float (Float.ofNat n / 100)).IsFraction := by
  have hall : ∀ k : Fin 101, 0 ≤ Float.ofNat k / 100 ∧ Float.ofNat k / 100 ≤ 1 := by
    decide +kernel
  exact hall ⟨n, by omega⟩

theorem shade_of_colorReference {lead : String} {c : ColorReference Number}
    (hcolor : settings.isColor value = true) (hslash : t.modifier = none → '/' ∉ value.toList)
    (h : colorReference lead value t = .ok c) : Shade settings lead c.variableName c.opacity := by
  obtain ⟨space, hspace, name, hname, rfl⟩ := exists_of_isColor hcolor
  obtain ⟨o, ho, h⟩ := bind_eq_ok h
  obtain rfl := Except.ok.inj h
  rcases modifierOpacity_eq_ok ho with ⟨hmodifier, rfl⟩ | ⟨digits, hmodifier, hdigits, rfl⟩
  · simp only [hmodifier]
    exact .full hspace hname (hslash hmodifier)
  · simp only [hmodifier]
    exact .part hspace hname hdigits rfl (isFraction_percentage hdigits.le)

theorem shade_of_strokeColor {c : ColorReference Number}
    (hslash : t.modifier = none → '/' ∉ value.toList) (h : strokeColor settings t value = .ok c) :
    Shade settings settings.strokeLead c.variableName c.opacity := by
  simp only [strokeColor] at h
  split at h
  · cases h
  · rename_i hcolor
    exact shade_of_colorReference (by simpa using hcolor) hslash h

/-! ### Meanings -/

theorem grounded_background (hslash : t.arbitrary = none → t.modifier = none → '/' ∉ value.toList)
    (h : background settings t value = .ok u) : u.Grounded scales settings := by
  simp only [background] at h
  split at h
  · cases h
  rename_i hplain
  have harbitrary : t.arbitrary = none := by
    cases ha : t.arbitrary with
    | none => rfl
    | some a => simp [ha] at hplain
  repeat' split at h
  · cases h
  · obtain rfl := Except.ok.inj h
    trivial
  · cases h
  · rename_i hcolor
    obtain ⟨c, hc, rfl⟩ := map_eq_ok h
    exact shade_of_colorReference (by simpa using hcolor) (hslash harbitrary) hc

theorem grounded_textColor (hslash : t.modifier = none → '/' ∉ value.toList)
    (h : textColor settings t value = .ok u) : u.Grounded scales settings := by
  simp only [textColor, bind, Except.bind, pure, Except.pure] at h
  split at h
  · cases h
  split at h
  · cases h
  split at h
  · obtain rfl := Except.ok.inj h
    trivial
  split at h
  · cases h
  rename_i hcolor
  split at h
  · cases h
  · rename_i c hc
    obtain rfl := Except.ok.inj h
    exact shade_of_colorReference (by simpa using hcolor) hslash hc

theorem grounded_text (hslash : t.arbitrary = none → t.modifier = none → '/' ∉ value.toList)
    (h : text scales settings t value = .ok u) : u.Grounded scales settings := by
  simp only [text] at h
  repeat' split at h
  · cases h
  · obtain rfl := Except.ok.inj h
    trivial
  · cases h
  · obtain rfl := Except.ok.inj h
    trivial
  · obtain rfl := Except.ok.inj h
    trivial
  · rename_i harbitrary _ _ _ _
    exact grounded_textColor (hslash harbitrary) h

theorem grounded_border (hslash : t.arbitrary = none → t.modifier = none → '/' ∉ value.toList)
    (h : border settings t value = .ok u) : u.Grounded scales settings := by
  simp only [border] at h
  split at h
  · cases h
  split at h
  · split at h
    · obtain rfl := Except.ok.inj h
      trivial
    · cases h
  rename_i harbitrary
  split at h
  · obtain rfl := Except.ok.inj h
    trivial
  split at h
  · obtain rfl := Except.ok.inj h
    trivial
  split at h
  · obtain rfl := Except.ok.inj h
    trivial
  split at h
  · rename_i style _
    obtain rfl := Except.ok.inj h
    change (if style = .dashed then some dashPattern else none).isSome ↔ style = .dashed
    by_cases hstyle : style = .dashed <;> simp [hstyle]
  · obtain ⟨c, hc, rfl⟩ := map_eq_ok h
    exact shade_of_strokeColor (hslash harbitrary) hc

theorem grounded_sideBorder {sides : List Side}
    (hslash : t.arbitrary = none → t.modifier = none → '/' ∉ value.toList)
    (h : sideBorder settings sides t value = .ok u) : u.Grounded scales settings := by
  simp only [sideBorder] at h
  split at h
  · cases h
  split at h
  · cases h
  rename_i hplain
  have harbitrary : t.arbitrary = none := by simpa using hplain
  repeat' split at h
  · obtain rfl := Except.ok.inj h
    trivial
  · obtain rfl := Except.ok.inj h
    trivial
  · obtain ⟨c, hc, rfl⟩ := map_eq_ok h
    exact shade_of_strokeColor (hslash harbitrary) hc

theorem grounded_ring (hslash : t.arbitrary = none → t.modifier = none → '/' ∉ value.toList)
    (h : ring settings t value = .ok u) : u.Grounded scales settings := by
  simp only [ring] at h
  split at h
  · cases h
  split at h
  · cases h
  rename_i hplain
  have harbitrary : t.arbitrary = none := by simpa using hplain
  repeat' split at h
  · obtain rfl := Except.ok.inj h
    trivial
  · obtain rfl := Except.ok.inj h
    trivial
  · cases h
  · obtain ⟨c, hc, rfl⟩ := map_eq_ok h
    exact shade_of_strokeColor (hslash harbitrary) hc

theorem grounded_opacityInRange {x : Float} (h : opacityInRange x = .ok u) :
    u.Grounded scales settings := by
  simp only [opacityInRange] at h
  split at h
  · rename_i hrange
    obtain rfl := Except.ok.inj h
    simpa [Update.Grounded, Number.IsFraction] using hrange
  · cases h

theorem grounded_opacity (h : opacity t value = .ok u) : u.Grounded scales settings := by
  simp only [opacity] at h
  repeat' split at h
  · exact grounded_opacityInRange h
  · cases h
  · exact grounded_opacityInRange h
  · cases h

theorem grounded_shadow (h : shadow scales t value = .ok u) : u.Grounded scales settings := by
  simp only [shadow] at h
  split at h
  · cases h
  split at h
  · obtain rfl := Except.ok.inj h
    exact .none
  split at h
  · rename_i preset hpreset
    obtain rfl := Except.ok.inj h
    exact .preset hpreset
  · cases h

/-- What a value means within a family is true of the theme and the settings. -/
theorem grounded_familyMeaning {family : Family}
    (hslash : t.arbitrary = none → t.modifier = none → '/' ∉ value.toList)
    (h : familyMeaning scales settings t value family = .ok u) : u.Grounded scales settings := by
  have hyields := familyMeaning_yields h
  cases family
  case background => exact grounded_background hslash h
  case text => exact grounded_text hslash h
  case border => exact grounded_border hslash h
  case borderSides sides => exact grounded_sideBorder hslash h
  case ring => exact grounded_ring hslash h
  case shadow => exact grounded_shadow h
  case opacity => exact grounded_opacity h
  all_goals
    cases hyields
    trivial

theorem grounded_layoutKeywords : ∀ p ∈ layoutKeywords, p.2.Grounded scales settings := by
  simp [layoutKeywords, Update.Grounded]

/-- What a word means is true of the theme and the settings. -/
theorem grounded_utilityMeaning {raw : List Char} (hformed : (Token.ofChars raw).malformed = false)
    (h : utilityMeaning scales settings (Token.ofChars raw) = .ok u) :
    u.Grounded scales settings := by
  simp only [utilityMeaning] at h
  split at h
  · rename_i hkeyword
    obtain rfl := Except.ok.inj h
    split at hkeyword
    · exact grounded_layoutKeywords _ (Table.mem_of_get? hkeyword)
    · cases hkeyword
  · split at h
    · rename_i family value hfound
      refine grounded_familyMeaning (fun harbitrary hmodifier hmem => ?_) h
      exact slash_not_mem_utility hformed harbitrary hmodifier
        ((suffix_of_lookup? hfound).subset hmem)
    · cases h

/-! ### Class strings -/

variable {a : Appearance Number}

/-- A word keeps the styles of an appearance coherent. -/
theorem CoherentAppearance.apply (ha : CoherentAppearance scales settings a) (raw : String) :
    CoherentAppearance scales settings
      ((outcome scales settings (Token.ofString raw)).apply a) := by
  cases ho : outcome scales settings (Token.ofString raw) with
  | dropped reason => exact ha
  | base u =>
    obtain ⟨hformed, -, hmeaning⟩ := (outcome_eq_base_iff scales settings).mp ho
    exact { ha with base := ha.base.apply (grounded_utilityMeaning hformed hmeaning) }
  | state name u =>
    obtain ⟨hformed, -, hname, hmeaning⟩ := (outcome_eq_state_iff scales settings).mp ho
    have hbefore : Coherent scales settings ((Table.get? name a.states).getD {}) := by
      cases hget : Table.get? name a.states with
      | none => exact coherent_empty scales settings
      | some s => exact (ha.states _ (Table.mem_of_get? hget)).2
    refine { ha with states := fun p hp => ?_ }
    rcases Table.mem_put hp with rfl | hp
    · exact ⟨hname, hbefore.apply (grounded_utilityMeaning hformed hmeaning)⟩
    · exact ha.states p hp

theorem CoherentAppearance.words (ha : CoherentAppearance scales settings a) (ws : List String) :
    CoherentAppearance scales settings
      (appearanceOf scales settings (ws.map Token.ofString) a) := by
  induction ws generalizing a with
  | nil => exact ha
  | cons w ws ih => exact ih (ha.apply w)

variable (scales settings)

/-- The base style of a class string is coherent; so is the style of each state, which has the name
of a configured one and no states of its own. -/
theorem coherent_parse (classes : String) :
    Coherent scales settings (parse scales settings classes).appearance.base ∧
      ∀ p ∈ (parse scales settings classes).appearance.states,
        p.1 ∈ settings.stateVariants ∧ Coherent scales settings p.2 ∧
          Table.has "states" p.2.fields = false := by
  have hstart : CoherentAppearance scales settings {} :=
    ⟨coherent_empty scales settings, List.forall_mem_nil _⟩
  have hparse := hstart.words (Text.words classes)
  refine ⟨hparse.base, fun p hp => ?_⟩
  obtain ⟨hname, hcoherent⟩ := hparse.states p hp
  exact ⟨hname, hcoherent, p.2.has_states_fields⟩

end DesignTokens.Utility
