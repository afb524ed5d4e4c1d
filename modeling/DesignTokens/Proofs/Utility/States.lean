import DesignTokens.Proofs.Utility.Dropping

/-!
States are kept apart. The style of a state is that of a class string of its own, made of what the
words of this state say after their variant; the base style is that of the words without variants.
Words with several variants, or with one that is no state, count for nothing.
-/
namespace DesignTokens.Utility

open Text (IsWord)

/-- What a word says after a variant and its colon. -/
def afterVariant (v w : String) : String :=
  String.ofList (w.toList.drop (v.toList.length + 1))

/-- What the words with the variant `v` and no other say after it, as a class string. -/
def stateText (v classes : String) : String :=
  String.intercalate " "
    (((tokens classes).filter fun t => t.variants == [v]).map fun t => afterVariant v t.raw)

/-- The words without variants, as a class string. -/
def baseText (classes : String) : String :=
  String.intercalate " " (((tokens classes).filter fun t => t.variants.isEmpty).map (·.raw))

/-- An outcome without a variant, under a state. -/
def Outcome.underState (v : String) : Outcome → Outcome
  | .base u => .state v u
  | o => o

/-- A meaning looks at no variant. -/
theorem utilityMeaning_congr (scales : Theme.Scales) (settings : Settings) (t : Token)
    (raw : String) (variants : List String) :
    utilityMeaning scales settings { t with raw := raw, variants := variants } =
      utilityMeaning scales settings t := by
  simp only [utilityMeaning]
  split
  · rfl
  · split
    · rename_i family value _
      cases family <;> rfl
    · rfl

/-- A word with one variant is that variant, a colon, and a word that differs in no other part. -/
theorem after_of_variants {w v : String} (hv : v ≠ "") (h : (Token.ofString w).variants = [v]) :
    w = v ++ ":" ++ afterVariant v w ∧ Token.ofString (afterVariant v w) =
      { Token.ofString w with raw := afterVariant v w, variants := [] } := by
  obtain ⟨rest, htext, htoken⟩ := ofChars_of_variants hv h
  have hafter : afterVariant v w = String.ofList rest := by
    simp [afterVariant, htext]
  rw [hafter]
  constructor
  · rw [← String.toList_inj]
    simp [htext]
  · simpa [Token.ofString] using htoken

variable (scales : Theme.Scales) (settings : Settings)

/-- A word of a state acts on it as what follows the variant acts on a base style. -/
theorem outcome_of_variants {w v : String} (hv : v ≠ "") (hstate : v ∈ settings.stateVariants)
    (h : (Token.ofString w).variants = [v]) :
    outcome scales settings (Token.ofString w) =
      (outcome scales settings (Token.ofString (afterVariant v w))).underState v := by
  rw [(after_of_variants hv h).2]
  simp only [outcome, h, utilityMeaning_congr]
  by_cases hm : (Token.ofString w).malformed
  · simp [hm, Outcome.underState]
  · cases utilityMeaning scales settings (Token.ofString w) <;>
      simp [hm, hstate, Outcome.underState]

/-- Free of white space, but maybe empty. -/
theorem solid_afterVariant {v w : String} (h : IsWord w) :
    ∀ c ∈ (afterVariant v w).toList, Text.isBlank c = false := by
  intro c hc
  simp only [afterVariant, String.toList_ofList] at hc
  exact h.solid c (List.mem_of_mem_drop hc)

/-- A text without white space is one token, or none that acts. -/
theorem baseUpdates_solid {x : String} (h : ∀ c ∈ x.toList, Text.isBlank c = false) :
    baseUpdates scales settings (tokens x) =
      (outcome scales settings (Token.ofString x)).base?.toList := by
  by_cases hx : x = ""
  · subst hx
    rfl
  · rw [tokens_of_isWord ⟨hx, h⟩, baseUpdates_cons]
    exact List.append_nil _

/-- The words of a state mean to it what the rests of these words mean to a style of their own. -/
theorem stateUpdates_words {v : String} (hv : v ≠ "") (hstate : v ∈ settings.stateVariants)
    {ws : List String} (h : ∀ w ∈ ws, IsWord w) :
    stateUpdates scales settings v (ws.map Token.ofString) =
      ((ws.filter fun w => (Token.ofString w).variants == [v]).map (afterVariant v)).flatMap
        fun x => baseUpdates scales settings (tokens x) := by
  induction ws with
  | nil => rfl
  | cons w ws ih =>
    rw [List.map_cons, stateUpdates_cons, ih (fun x hx => h x (by simp [hx])), List.filter_cons]
    by_cases hw : (Token.ofString w).variants = [v]
    · have hrest : (Token.ofString (afterVariant v w)).variants = [] := by
        rw [(after_of_variants hv hw).2]
      have hupdate : (outcome scales settings (Token.ofString w)).state? v =
          (outcome scales settings (Token.ofString (afterVariant v w))).base? := by
        rw [outcome_of_variants scales settings hv hstate hw]
        cases ho : outcome scales settings (Token.ofString (afterVariant v w)) with
        | dropped reason => rfl
        | base u => simp [Outcome.underState, Outcome.state?, Outcome.base?]
        | state name u =>
          have hname := ((outcome_eq_state_iff scales settings).mp ho).2.1
          simp [hrest] at hname
      rw [if_pos (by simp [hw]), List.map_cons, List.flatMap_cons, hupdate,
        baseUpdates_solid scales settings (solid_afterVariant (h w (by simp)))]
    · have hnone : (outcome scales settings (Token.ofString w)).state? v = none := by
        rw [Option.eq_none_iff_forall_ne_some]
        intro u hu
        exact hw ((outcome_eq_state_iff scales settings).mp (Outcome.state?_eq_some.mp hu)).2.1
      rw [if_neg (by simp [hw]), hnone]
      rfl

theorem baseUpdates_append (ts us : List Token) :
    baseUpdates scales settings (ts ++ us) =
      baseUpdates scales settings ts ++ baseUpdates scales settings us := List.filterMap_append

/-- The updates of texts joined by spaces. -/
theorem baseUpdates_intercalate (xs : List String) :
    baseUpdates scales settings (tokens (String.intercalate " " xs)) =
      xs.flatMap fun x => baseUpdates scales settings (tokens x) := by
  rw [tokens, Text.words_intercalate]
  induction xs with
  | nil => rfl
  | cons x xs ih => rw [List.flatMap_cons, List.map_append, baseUpdates_append, ih]; rfl

/-- A state is updated as the base style of its own class string is. -/
theorem stateUpdates_tokens {v : String} (hv : v ≠ "") (hstate : v ∈ settings.stateVariants)
    (classes : String) :
    stateUpdates scales settings v (tokens classes) =
      baseUpdates scales settings (tokens (stateText v classes)) := by
  rw [stateText, baseUpdates_intercalate, tokens,
    stateUpdates_words scales settings hv hstate fun w hw => Text.isWord_of_mem_words hw]
  simp [List.filter_map, Function.comp_def]

theorem variants_stateText {v : String} (hv : v ≠ "") (classes : String) :
    ∀ t ∈ tokens (stateText v classes), t.variants = [] := by
  intro t ht
  rw [tokens, stateText, Text.words_intercalate] at ht
  obtain ⟨w, hw, rfl⟩ := List.mem_map.mp ht
  obtain ⟨x, hx, hwx⟩ := List.mem_flatMap.mp hw
  obtain ⟨u, hu, rfl⟩ := List.mem_map.mp hx
  obtain ⟨hmem, hvariants⟩ := List.mem_filter.mp hu
  obtain ⟨hword, -, hraw⟩ := mem_tokens hmem
  have hw' : w = afterVariant v u.raw := by
    by_cases hempty : afterVariant v u.raw = ""
    · simp [hempty] at hwx
    · rw [Text.words_of_isWord ⟨hempty, solid_afterVariant hword⟩] at hwx
      simpa using hwx
  rw [hw']
  rw [(after_of_variants hv (by simpa [hraw] using hvariants)).2]

/-- The tokens of the base text are the tokens without variants. -/
theorem tokens_baseText (classes : String) :
    tokens (baseText classes) = (tokens classes).filter fun t => t.variants.isEmpty := by
  rw [tokens, baseText, Text.words_join, List.map_map]
  · rw [List.map_congr_left (g := id), List.map_id]
    intro t ht
    exact (mem_tokens (List.mem_filter.mp ht |>.1)).2.2
  · intro w hw
    obtain ⟨t, ht, rfl⟩ := List.mem_map.mp hw
    exact (mem_tokens (List.mem_filter.mp ht |>.1)).1

/-- Tokens with variants do not act on the base style. -/
theorem baseUpdates_filter (ts : List Token) :
    baseUpdates scales settings (ts.filter fun t => t.variants.isEmpty) =
      baseUpdates scales settings ts := by
  induction ts with
  | nil => rfl
  | cons t ts ih =>
    rw [List.filter_cons]
    by_cases h : t.variants = []
    · rw [if_pos (by simp [h]), baseUpdates_cons, baseUpdates_cons, ih]
    · have hnone : (outcome scales settings t).base? = none := by
        rw [Option.eq_none_iff_forall_ne_some]
        intro u hu
        exact h ((outcome_eq_base_iff scales settings).mp (Outcome.base?_eq_some.mp hu)).2.1
      rw [if_neg (by simp [h]), ih, baseUpdates_cons, hnone]
      rfl

/-- A class string without variants has an appearance without states. -/
theorem appearance_parse_of_variants {classes : String} (h : ∀ t ∈ tokens classes, t.variants = []) :
    (parse scales settings classes).appearance =
      ⟨run (baseUpdates scales settings (tokens classes)) {}, []⟩ := by
  have hbase := base_parse scales settings classes
  have hstates : (parse scales settings classes).appearance.states = [] :=
    states_appearanceOf scales settings h {}
  rw [← hbase, ← hstates]

/-- Some token without a variant acts if and only if some word is applied. -/
theorem baseUpdates_ne_nil_iff {classes : String} (h : ∀ t ∈ tokens classes, t.variants = []) :
    baseUpdates scales settings (tokens classes) ≠ [] ↔
      ∃ w ∈ Text.words classes, isApplied scales settings w := by
  constructor
  · intro hne
    obtain ⟨u, hu⟩ := List.exists_mem_of_ne_nil _ hne
    obtain ⟨t, ht, hbase⟩ := List.mem_filterMap.mp hu
    obtain ⟨hword, hmem, hraw⟩ := mem_tokens ht
    refine ⟨t.raw, hmem, ?_⟩
    rw [isApplied_iff scales settings hword, hraw, Outcome.base?_eq_some.mp hbase]
    rfl
  · rintro ⟨w, hw, happlied⟩ hnil
    have ht : Token.ofString w ∈ tokens classes := List.mem_map.mpr ⟨w, hw, rfl⟩
    rw [isApplied_iff scales settings (Text.isWord_of_mem_words hw)] at happlied
    cases ho : outcome scales settings (Token.ofString w) with
    | dropped reason => simp [ho, Outcome.isDropped] at happlied
    | base u =>
      have hu : u ∈ baseUpdates scales settings (tokens classes) :=
        List.mem_filterMap.mpr ⟨_, ht, Outcome.base?_eq_some.mpr ho⟩
      simp [hnil] at hu
    | state v u =>
      have hv := ((outcome_eq_state_iff scales settings).mp ho).2.1
      simp [h _ ht] at hv

/-- A state has a style if and only if a word of its own class string is applied, and the style is
what that string is parsed to, which knows no states; no other variant has a style. The base style
is that of the words without variants. -/
theorem parse_states (h : "" ∉ settings.stateVariants) (classes : String) :
    (∀ v ∈ settings.stateVariants,
      Table.get? v (parse scales settings classes).appearance.states =
        (if (Text.words (stateText v classes)).any (isApplied scales settings)
          then some (parse scales settings (stateText v classes)).appearance.base else none) ∧
      (parse scales settings (stateText v classes)).appearance.states = []) ∧
    (∀ v ∉ settings.stateVariants,
      Table.get? v (parse scales settings classes).appearance.states = none) ∧
    (parse scales settings (baseText classes)).appearance =
      ⟨(parse scales settings classes).appearance.base, []⟩ := by
  refine ⟨?_, ?_, ?_⟩
  · intro v hv
    have hne : v ≠ "" := fun e => h (e ▸ hv)
    have hvariants := variants_stateText hne classes
    have happlied := baseUpdates_ne_nil_iff scales settings hvariants
    rw [appearance_parse_of_variants scales settings hvariants, get?_states_parse,
      stateUpdates_tokens scales settings hne hv]
    refine ⟨?_, rfl⟩
    by_cases hnil : baseUpdates scales settings (tokens (stateText v classes)) = []
    · rw [if_pos hnil, if_neg]
      simpa [hnil] using happlied
    · rw [if_neg hnil, if_pos]
      simpa [hnil] using happlied
  · intro v hv
    have hnil : stateUpdates scales settings v (tokens classes) = [] := by
      rw [List.eq_nil_iff_forall_not_mem]
      intro u hu
      obtain ⟨t, -, ht⟩ := List.mem_filterMap.mp hu
      exact hv ((outcome_eq_state_iff scales settings).mp (Outcome.state?_eq_some.mp ht)).2.2.1
    rw [get?_states_parse, if_pos hnil]
  · have hvariants : ∀ t ∈ tokens (baseText classes), t.variants = [] := by
      intro t ht
      rw [tokens_baseText] at ht
      simpa using (List.mem_filter.mp ht).2
    rw [appearance_parse_of_variants scales settings hvariants, tokens_baseText,
      baseUpdates_filter, base_parse]

/-- The words of two states and of the base style are mixed, and one word has both states. -/
theorem parse_states_mixed :
    "" ∉ ({} : Settings).stateVariants ∧
      Table.get? "hover" (parse Theme.Scales.plain {}
        "flex hover:w-3/4 focus:grow hover:!bg-kumo-brand hover:focus:wrap").appearance.states =
          some (parse Theme.Scales.plain {} "w-3/4 !bg-kumo-brand").appearance.base := by
  have hstate : "" ∉ ({} : Settings).stateVariants := by decide
  have htext : stateText "hover"
      "flex hover:w-3/4 focus:grow hover:!bg-kumo-brand hover:focus:wrap" =
        "w-3/4 !bg-kumo-brand" := by decide +kernel
  have happlied : (Text.words "w-3/4 !bg-kumo-brand").any (isApplied Theme.Scales.plain {}) =
      true := by decide +kernel
  have hhover := ((parse_states Theme.Scales.plain {} hstate
    "flex hover:w-3/4 focus:grow hover:!bg-kumo-brand hover:focus:wrap").1 "hover" (by decide)).1
  rw [htext, happlied] at hhover
  exact ⟨hstate, hhover⟩

end DesignTokens.Utility
