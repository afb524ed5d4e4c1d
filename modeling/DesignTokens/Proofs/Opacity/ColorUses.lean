import DesignTokens.Proofs.Opacity.Marked
import DesignTokens.Proofs.Opacity.Sources
import DesignTokens.Proofs.Utility.Colors
import DesignTokens.Proofs.Utility.Updates

/-!
Colours with an opacity that a class string uses, and what a scan of the class string finds of them. A
scan finds the colour of a background, a text, a whole border or a ring if its name has word characters
and hyphens only. It does not find the colour of single sides, whose mark it takes for a part of the
name.
-/
namespace DesignTokens.OpacityModifier

open Text

open Utility (Token Update ColorReference tokens outcome lookup? vocabulary isShortNumber numberOf)

/-- The marks of sides, and the empty one of all the sides. -/
def sideMarks : List String := ["", "t-", "r-", "b-", "l-", "x-", "y-"]

def isSides : Utility.Family → Bool
  | .borderSides _ => true
  | _ => false

/-- The token colours single sides of a border. -/
def colorsSides (t : Token) : Bool := (lookup? vocabulary t.utility).any fun p => isSides p.1

/-- What the parser calls a coloured name is a colour utility of the scan, and maybe a mark. -/
theorem exists_sideMark : ∀ p ∈ vocabulary, p.2.isColored → ∃ u ∈ utilities,
    ∃ mark ∈ sideMarks, p.1 ++ "-" = u ++ "-" ++ mark ∧ (isSides p.2 = false ↔ mark = "") := by
  decide +kernel

theorem sideMark_spelled : ∀ mark ∈ sideMarks, (∀ c ∈ mark.toList, isPartChar c) ∧
    (mark = "" ∨ mark.toList.head?.any isAsciiLetter) := by
  simp [sideMarks, isPartChar, isWord, isAsciiLetter]

/-- A mark before a name of word characters and hyphens leaves it one. -/
theorem sideMark_append {mark name : String} (hmark : mark ∈ sideMarks)
    (hparts : ∀ c ∈ name.toList, isPartChar c) (hletter : name.toList.head?.any isAsciiLetter) :
    (∀ c ∈ (mark ++ name).toList, isPartChar c) ∧
      (mark ++ name).toList.head?.any isAsciiLetter := by
  obtain ⟨hmarkParts, hmarkLetter⟩ := sideMark_spelled mark hmark
  rw [String.toList_append]
  refine ⟨List.forall_mem_append.mpr ⟨hmarkParts, hparts⟩, ?_⟩
  rcases hmarkLetter with rfl | hmarkLetter
  · exact hletter
  · cases hchars : mark.toList with
    | nil => simp [hchars] at hmarkLetter
    | cons d ds => simpa [hchars] using hmarkLetter

/-- How the utility of a coloured token is spelled. -/
theorem exists_spelled {t : Token} {family : Utility.Family} {name : String}
    (hlookup : lookup? vocabulary t.utility = some (family, name)) (hcolored : family.isColored)
    (hname : name ≠ "") : ∃ u ∈ utilities, ∃ mark ∈ sideMarks,
      t.utility = u ++ "-" ++ (mark ++ name) ∧ (colorsSides t = false ↔ mark = "") := by
  obtain ⟨entry, hentry, hvalue, -⟩ := Utility.lookup?_eq_some hlookup
  obtain ⟨u, hu, mark, hmark, hlead, hsides⟩ := exists_sideMark (entry, family) hentry hcolored
  refine ⟨u, hu, mark, hmark, ?_, ?_⟩
  · rw [Utility.eq_append_of_valueUnder? hvalue hname, hlead, String.append_assoc]
  · rw [colorsSides, hlookup]
    exact hsides

theorem isPartChar_of_mem_stateVariants : ∀ v ∈ ({} : Utility.Settings).stateVariants,
    v.toList ≠ [] ∧ ∀ c ∈ v.toList, isPartChar c := by
  simp [isPartChar, isWord]

/-- A token that is applied is well formed and has at most one variant, which is a state. -/
theorem applied_iff {scales : Theme.Scales} {settings : Utility.Settings} {t : Token}
    {u : Update Number} : (outcome scales settings t = .base u ∨
      ∃ v, outcome scales settings t = .state v u) ↔ t.malformed = false ∧
        (t.variants = [] ∨ ∃ v ∈ settings.stateVariants, t.variants = [v]) ∧
        Utility.utilityMeaning scales settings t = .ok u := by
  simp only [Utility.outcome_eq_base_iff, Utility.outcome_eq_state_iff]
  constructor
  · rintro (⟨hformed, hvariants, hu⟩ | ⟨v, hformed, hvariants, hv, hu⟩)
    · exact ⟨hformed, .inl hvariants, hu⟩
    · exact ⟨hformed, .inr ⟨v, hv, hvariants⟩, hu⟩
  · rintro ⟨hformed, hvariants | ⟨v, hv, hvariants⟩, hu⟩
    · exact .inl ⟨hformed, hvariants, hu⟩
    · exact .inr ⟨v, hformed, hvariants, hv, hu⟩

/-- The name of a colour begins with a letter. -/
theorem letter_of_isColor {value : String} (h : ({} : Utility.Settings).isColor value = true) :
    value.toList.head?.any isAsciiLetter := by
  obtain ⟨space, hspace, name, -, rfl⟩ := Utility.exists_of_isColor h
  obtain rfl : space = "kumo" := by simpa using hspace
  rw [String.toList_append, String.toList_append]
  rfl

/-- The word of a colour with a percentage, where a state is a variant of the scan. -/
theorem marked_of_applied {t : Token} {u token m : String} (hraw : Token.ofString t.raw = t)
    (hvariants : t.variants = [] ∨
      ∃ v ∈ ({} : Utility.Settings).stateVariants, t.variants = [v])
    (hplain : t.arbitrary = none) (hpositive : t.negative = false) (hm : t.modifier = some m)
    (hutility : t.utility = u ++ "-" ++ token) (hu : u ∈ utilities)
    (hparts : ∀ c ∈ token.toList, isPartChar c) (hletter : token.toList.head?.any isAsciiLetter)
    (hshort : isShortNumber 3 m) : Marked t.raw.toList u token m := by
  refine ⟨hu, hparts, hletter, hshort, ?_⟩
  rw [← hraw] at hplain hpositive hm
  obtain ⟨base, hword, hbase⟩ := Utility.raw_of_modifier hpositive hplain hm
  change t.raw.toList = Utility.joinParts ':'
    ((Token.ofString t.raw).variants.map String.toList ++ [base]) at hword
  change let body := (Token.ofString t.raw).utility.toList ++ '/' :: m.toList
    (base = body ∨ base = '!' :: body ∨ base = body ++ ['!']) at hbase
  rw [hraw] at hword hbase
  rw [hutility] at hbase
  refine ⟨_, base, hword, ?_, hbase⟩
  rcases hvariants with hnone | ⟨v, hv, hone⟩
  · simp [hnone]
  · simpa [hone] using isPartChar_of_mem_stateVariants v hv

/-- A colour with a percentage that a class string applies is found in its word if and only if it is
not the colour of single sides and its name has word characters and hyphens only. What is found in the
word is found in the class string. -/
theorem finds_applied_color {scales : Theme.Scales} {classes : String} {t : Token}
    {u : Update Number} {lead m : String} {c : ColorReference Number} (ht : t ∈ tokens classes)
    (hu : outcome scales {} t = .base u ∨ ∃ v, outcome scales {} t = .state v u)
    (hc : u.color? {} = some (lead, c)) (hm : t.modifier = some m) :
    ∃ name, c.variableName = lead ++ name ++ "/" ++ m ∧ numberOf m ≤ 100 ∧
      (Finds t.raw name (numberOf m) ↔
        colorsSides t = false ∧ ∀ ch ∈ name.toList, isPartChar ch) ∧
      (Finds t.raw name (numberOf m) → Finds classes name (numberOf m)) := by
  obtain ⟨hword, hmem, hraw⟩ := Utility.mem_tokens ht
  obtain ⟨-, hvariants, hmeaning⟩ := applied_iff.mp hu
  obtain ⟨family, name, hlookup, hcolored, hsets⟩ :=
    Utility.setsColor_of_utilityMeaning hmeaning hc
  have hpercentage := Utility.percentage_of_colorReference hm hsets.reference
  have hreference := hsets.reference
  rw [Utility.colorReference_of_modifier hm hpercentage] at hreference
  obtain rfl := Except.ok.inj hreference
  have hletter := letter_of_isColor hsets.isColor
  have hname : name ≠ "" := by
    rintro rfl
    cases hletter
  obtain ⟨utility, hutility, mark, hmark, hspelled, hsides⟩ := exists_spelled hlookup hcolored hname
  -- Where the name has no other characters, the word has the one modifier of the mark and the name.
  have hscan : (∀ ch ∈ name.toList, isPartChar ch) →
      scanAll false t.raw.toList = [⟨mark ++ name, numberOf m, utility⟩] := by
    intro hparts
    obtain ⟨hparts, hletter⟩ := sideMark_append hmark hparts hletter
    exact (marked_of_applied hraw hvariants hsets.plain hsets.positive hm hspelled hutility
      hparts hletter hpercentage.short).scanAll_eq
  refine ⟨name, rfl, hpercentage.le, ?_, ?_⟩
  · rw [finds_iff, words_of_isWord hword, hsides]
    constructor
    · rintro ⟨-, w, hw, modifier, hmodifier, htoken, -⟩
      obtain rfl := List.mem_singleton.mp hw
      have hparts : ∀ ch ∈ name.toList, isPartChar ch :=
        htoken ▸ isPartChar_of_mem_scanAll hmodifier
      rw [hscan hparts, List.mem_singleton] at hmodifier
      subst hmodifier
      refine ⟨?_, hparts⟩
      simpa using congrArg String.toList htoken
    · rintro ⟨rfl, hparts⟩
      refine ⟨hpercentage.le, t.raw, List.mem_singleton_self _, ⟨name, numberOf m, utility⟩, ?_,
        rfl, rfl⟩
      rw [hscan hparts, String.empty_append]
      exact List.mem_singleton_self _
  · rw [finds_iff, finds_iff, words_of_isWord hword]
    rintro ⟨hle, w, hw, hfound⟩
    obtain rfl := List.mem_singleton.mp hw
    exact ⟨hle, t.raw, hmem, hfound⟩

theorem finds_applied_color_hover :
    (∃ c, outcome .plain {} (Token.ofString "hover:bg-kumo-brand/70!") = .state "hover" (.fill c) ∧
      c.variableName = "color-kumo-brand/70") ∧
      Finds "hover:bg-kumo-brand/70! text-kumo-danger/50" "kumo-brand" 70 := by
  have hmodifier : (Token.ofString "hover:bg-kumo-brand/70!").modifier = some "70" := by decide
  have hseventy : Utility.IsPercentage "70" := by
    refine ⟨?_, by decide⟩
    simp [isShortNumber, isAsciiDigit]
    decide
  have hmeaning : Utility.utilityMeaning .plain {} (Token.ofString "hover:bg-kumo-brand/70!") =
      (Utility.colorReference "color-" "kumo-brand" (Token.ofString "hover:bg-kumo-brand/70!")).map
        .fill := rfl
  rw [Utility.colorReference_of_modifier hmodifier hseventy] at hmeaning
  have hstate := (Utility.outcome_eq_state_iff .plain {} (v := "hover")).mpr
    ⟨by decide, by decide, by decide, hmeaning⟩
  have hmem : Token.ofString "hover:bg-kumo-brand/70!" ∈
      tokens "hover:bg-kumo-brand/70! text-kumo-danger/50" := List.mem_cons_self
  obtain ⟨name, hname, -, hword, hclasses⟩ :=
    finds_applied_color hmem (.inr ⟨"hover", hstate⟩) rfl hmodifier
  obtain rfl : name = "kumo-brand" := by
    simpa only [String.append_left_inj, String.append_right_inj, eq_comm] using hname
  have hparts : ∀ ch ∈ "kumo-brand".toList, isPartChar ch := by simp [isPartChar, isWord]
  exact ⟨⟨_, hstate, rfl⟩, hclasses (hword.mpr ⟨by decide, hparts⟩)⟩

/-- The mark of a side is taken for a part of the name. -/
theorem sideMark_found_line :
    (∃ c, outcome .plain {} (Token.ofString "border-t-kumo-line/50") = .base (.strokeColor c) ∧
      c.variableName = "color-kumo-line/50") ∧
      ofSource "border-t-kumo-line/50" = [⟨"t-kumo-line", 50, "border"⟩] ∧
      ¬ Finds "border-t-kumo-line/50" "kumo-line" 50 := by
  have hmodifier : (Token.ofString "border-t-kumo-line/50").modifier = some "50" := by decide
  have hfifty : Utility.IsPercentage "50" := by
    refine ⟨?_, by decide⟩
    simp [isShortNumber, isAsciiDigit]
    decide
  have hmeaning : Utility.utilityMeaning .plain {} (Token.ofString "border-t-kumo-line/50") =
      (Utility.colorReference "color-" "kumo-line" (Token.ofString "border-t-kumo-line/50")).map
        .strokeColor := rfl
  rw [Utility.colorReference_of_modifier hmodifier hfifty] at hmeaning
  have hbase := (Utility.outcome_eq_base_iff .plain {}).mpr ⟨by decide, by decide, hmeaning⟩
  have hfound : ofSource "border-t-kumo-line/50" = [⟨"t-kumo-line", 50, "border"⟩] := by
    decide +kernel
  refine ⟨⟨_, hbase, rfl⟩, hfound, ?_⟩
  rintro ⟨modifier, hmem, htoken, -⟩
  rw [hfound, List.mem_singleton] at hmem
  subst hmem
  exact absurd htoken (by decide)

end DesignTokens.OpacityModifier
