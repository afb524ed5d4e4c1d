import DesignTokens.Css.Length
import DesignTokens.Proofs.Decimal.Numeral

/-!
Lengths as numbers. What has the form of a length is a number in any script: its digits become ASCII
digits when it is read, and one of them stands beside the point.
-/
namespace DesignTokens

namespace Decimal

open Text

/-- A decimal digit is an ASCII one, or lies beyond ASCII and is no blank. -/
theorem digitValue?_cases {c : Char} {d : Nat} (h : digitValue? c = some d) :
    isAsciiDigit c ∨ 127 < c.toNat ∧ isBlank c = false ∧ d < 10 := by
  rw [digitValue?] at h
  split at h
  · rename_i hdigit
    simp only [Bool.and_eq_true, decide_eq_true_eq] at hdigit
    exact .inl (isAsciiDigit_iff.mpr hdigit)
  split at h
  · cases h
  obtain ⟨z, hz, rfl⟩ := Option.map_eq_some_iff.mp h
  have hapart : ∀ z ∈ zeros, 160 < z ∧ (z + 9 < 5760 ∨ 5760 < z ∧ z + 9 < 8192 ∨ 12288 < z) := by
    decide
  have hzero := hapart z (List.mem_of_find?_eq_some hz)
  have hrange := List.find?_some hz
  simp only [Bool.and_eq_true, decide_eq_true_eq] at hrange
  have hblank : isBlank c = false := by
    simp only [isBlank, Bool.or_eq_false_iff, Bool.and_eq_false_iff, beq_eq_false_iff_ne,
      decide_eq_false_iff_not]
    omega
  exact .inr ⟨by omega, hblank, by omega⟩

/-- In plain form a decimal digit of any script is an ASCII one. -/
theorem isAsciiDigit_plainChar {c : Char} (h : isDecimal c) : isAsciiDigit (plainChar c) := by
  obtain ⟨d, hd⟩ := Option.isSome_iff_exists.mp h
  rcases digitValue?_cases hd with hascii | ⟨hbeyond, hblank, hlt⟩
  · have hrange := isAsciiDigit_iff.mp hascii
    rwa [plainChar, if_pos (by omega)]
  · rw [plainChar, if_neg (by omega), if_neg (by simp [hblank]), hd]
    have hall : ∀ k < 10, isAsciiDigit (Char.ofNat (48 + k)) := by decide
    exact hall d hlt

theorem digits_map_plainChar {cs : List Char} (h : ∀ c ∈ cs, isDecimal c) :
    Digits (cs.map plainChar) := by
  intro d hd
  obtain ⟨c, hc, rfl⟩ := List.mem_map.mp hd
  exact isAsciiDigit_plainChar (h c hc)

/-- Every ASCII character but the last one is its own plain form. -/
theorem plain_eq_map {cs : List Char} (h : ∀ c ∈ cs, c.toNat ≠ 127) :
    plain cs = cs.map plainChar := by
  rw [plain]
  split
  · rename_i hascii
    have hsame : ∀ c ∈ cs, plainChar c = c := by
      intro c hc
      have hlt := List.all_eq_true.mp hascii c hc
      rw [decide_eq_true_eq] at hlt
      have hne := h c hc
      exact if_pos (by omega)
    rw [List.map_congr_left hsame, List.map_id']
  · rfl

/-- Digits, with or without a point that stands beside one of them. -/
inductive Fixed (isDigit : Char → Bool) : List Char → Prop where
  | whole {ds : List Char} (hds : ∀ c ∈ ds, isDigit c) (hne : ds ≠ []) : Fixed isDigit ds
  | point {ds es : List Char} (hds : ∀ c ∈ ds, isDigit c) (hes : ∀ c ∈ es, isDigit c)
      (hne : ds ++ es ≠ []) : Fixed isDigit (ds ++ '.' :: es)

namespace Fixed

variable {cs : List Char}

theorem map_plainChar (h : Fixed isDecimal cs) : Fixed isAsciiDigit (cs.map plainChar) := by
  cases h with
  | whole hds hne => exact .whole (digits_map_plainChar hds) (by simpa using hne)
  | point hds hes hne =>
    rw [List.map_append, List.map_cons]
    exact .point (digits_map_plainChar hds) (digits_map_plainChar hes) (by simpa using hne)

theorem ne_delete (h : Fixed isDecimal cs) : ∀ c ∈ cs, c.toNat ≠ 127 := by
  have hdigit : ∀ c, isDecimal c → c.toNat ≠ 127 := by
    intro c hc
    obtain ⟨d, hd⟩ := Option.isSome_iff_exists.mp hc
    rcases digitValue?_cases hd with hascii | ⟨hbeyond, -, -⟩
    · have hrange := isAsciiDigit_iff.mp hascii
      omega
    · omega
  cases h with
  | whole hds _ => exact fun c hc => hdigit c (hds c hc)
  | point hds hes _ =>
    intro c hc
    rcases List.mem_append.mp hc with hc | hc
    · exact hdigit c (hds c hc)
    · rcases List.mem_cons.mp hc with rfl | hc
      · decide
      · exact hdigit c (hes c hc)

theorem figures (h : Fixed isAsciiDigit cs) : Figures cs := by
  cases h with
  | whole hds _ => exact Digits.figures hds
  | point hds hes _ =>
    exact figures_append (Digits.figures hds) (figures_cons rfl (Digits.figures hes))

theorem isSome_readMagnitude? (h : Fixed isAsciiDigit cs) : (readMagnitude? cs).isSome := by
  cases h with
  | whole hds hne =>
    have hstop : Stops [] := by simp [Stops]
    have htake := takeWhile_digits hds hstop
    have hdrop := dropWhile_digits hds hstop
    rw [List.append_nil] at htake hdrop
    simp [readMagnitude?, htake, hdrop, hne, readExponent?]
  | @point ds es hds hes hne =>
    have hpoint : Stops ('.' :: es) := by simp [Stops, isAsciiDigit]
    have hstop : Stops [] := by simp [Stops]
    have htake := takeWhile_digits hes hstop
    have hdrop := dropWhile_digits hes hstop
    rw [List.append_nil] at htake hdrop
    simp only [readMagnitude?, takeWhile_digits hds hpoint, dropWhile_digits hds hpoint, htake,
      hdrop, readExponent?]
    simpa using hne

/-- A number starts with neither a sign nor a letter. -/
theorem takeSign_readName? (h : Fixed isAsciiDigit cs) :
    takeSign cs = (false, cs) ∧ readName? cs = none := by
  have hdigit : ∀ {d ds}, isAsciiDigit d → takeSign (d :: ds) = (false, d :: ds) ∧
      readName? (d :: ds) = none := fun hd => ⟨takeSign_digit hd, readName?_digit hd⟩
  cases h with
  | @whole ds hds hne =>
    obtain ⟨d, ds, rfl⟩ := List.exists_cons_of_ne_nil hne
    exact hdigit (hds d List.mem_cons_self)
  | @point ds es hds hes _ =>
    cases ds with
    | nil => simp [takeSign, readName?]
    | cons d ds => exact hdigit (hds d List.mem_cons_self)

/-- A number in digits of any script is read, with or without a sign. -/
theorem isSome_readFloat? (h : Fixed isDecimal cs) (negative : Bool) :
    (readFloat? (String.ofList (if negative then '-' :: cs else cs))).isSome := by
  have hplain : plain (if negative then '-' :: cs else cs) =
      if negative then '-' :: cs.map plainChar else cs.map plainChar := by
    cases negative
    · exact plain_eq_map h.ne_delete
    · exact plain_eq_map (List.forall_mem_cons.mpr ⟨by decide, h.ne_delete⟩)
  have hascii := h.map_plainChar
  have hfigures := figures_signed negative hascii.figures
  obtain ⟨hsign, hname⟩ := hascii.takeSign_readName?
  obtain ⟨x, hx⟩ := Option.isSome_iff_exists.mp hascii.isSome_readMagnitude?
  rw [readFloat?, String.toList_ofList, hplain, trimPad_of_figures hfigures,
    dropUnderscores_of_figures hfigures, Option.bind_eq_bind, Option.bind_some,
    takeSign_signed hsign]
  simp only [hname, hx]
  rfl

end Fixed

end Decimal

namespace Css

open Text Decimal

/-- What is taken as a decimal is one. -/
theorem fixed_takeDecimal {cs : List Char} (h : (takeDecimal cs).1 ≠ []) :
    Fixed isDecimal (takeDecimal cs).1 := by
  have hdigits : ∀ (ds : List Char), ∀ c ∈ ds.takeWhile isDecimal, isDecimal c := fun ds _ hc =>
    List.mem_takeWhile_imp hc
  rw [takeDecimal] at h ⊢
  split at h
  · dsimp only at h ⊢
    split at h
    · exact absurd rfl h
    · rename_i hsome
      rw [if_neg hsome]
      exact .point (hdigits _) (hdigits _) (by simpa using hsome)
  · exact .whole (hdigits _) h

end Css

end DesignTokens
