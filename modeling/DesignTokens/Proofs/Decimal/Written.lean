import DesignTokens.Proofs.Decimal.Numeral
import DesignTokens.Proofs.Decimal.Scientific
import DesignTokens.Proofs.Decimal.ShortestDigits

/-!
Decimals as they are written. The text of a positive decimal is a numeral that stands for it and has
a point or an exponent, so the shortest text of a float is read as that float and is none of an
integer.
-/
namespace DesignTokens.Decimal

open Text (isAsciiDigit)

namespace Scientific

variable (s : Scientific)

def value : ℚ := s.coefficient * 10 ^ s.exponent

def digits : List Char := Nat.toDigits 10 s.coefficient

/-- The place of the first digit. -/
def first : Int := s.exponent + s.digits.length - 1

/-- Trailing zeros move into the exponent. -/
theorem exists_normalize : ∃ k : Nat, s.coefficient = s.normalize.coefficient * 10 ^ k ∧
    s.normalize.exponent = s.exponent + k := by
  let zeros := s.digits.reverse.takeWhile (· == '0')
  let others := s.digits.reverse.dropWhile (· == '0')
  have hzeros : zeros = zeroes zeros.length :=
    List.eq_replicate_of_mem fun c hc => by simpa using List.mem_takeWhile_imp hc
  have hdigits : s.digits = others.reverse ++ zeroes zeros.length := by
    have hsplit := congrArg List.reverse
      (List.takeWhile_append_dropWhile (p := (· == '0')) (l := s.digits.reverse))
    rw [List.reverse_append, List.reverse_reverse] at hsplit
    rw [← hsplit, zeroes, ← List.reverse_replicate]
    exact congrArg (fun zs => others.reverse ++ List.reverse zs) hzeros
  have hcoefficient : s.coefficient = digitsFrom 10 0 others.reverse * 10 ^ zeros.length := by
    rw [← digitsFrom_zeroes, ← digitsFrom_append, ← hdigits, digits, digitsFrom_toDigits]
  exact ⟨zeros.length, (Nat.div_mul_cancel (Dvd.intro_left _ hcoefficient.symm)).symm, rfl⟩

theorem value_normalize : s.normalize.value = s.value := by
  obtain ⟨k, hcoefficient, hexponent⟩ := s.exists_normalize
  rw [value, value, hexponent, hcoefficient, zpow_add₀ (by norm_num), zpow_natCast]
  push_cast
  ring

theorem normalize_pos {s : Scientific} (hs : 0 < s.coefficient) : 0 < s.normalize.coefficient := by
  obtain ⟨k, hcoefficient, -⟩ := s.exists_normalize
  exact Nat.pos_of_mul_pos_right (hcoefficient ▸ hs)

end Scientific

namespace Numeral

/-- A numeral that stands for a decimal, and does not look like an integer. -/
structure Denotes (n : Numeral) (s : Scientific) : Prop where
  wellFormed : n.WellFormed
  notInteger : n.fraction ≠ [] ∨ n.exponent.isSome
  value : (n.coefficient * 10 ^ n.scale : ℚ) = s.value

variable {s : Scientific}

theorem digitsFrom_zero_cons (k : Nat) :
    digitsFrom 10 0 ('0' :: (zeroes k ++ s.digits)) = s.coefficient := by
  have hzeros : digitsFrom 10 0 ('0' :: zeroes k) = 0 :=
    (digitsFrom_zeroes 0 (k + 1)).trans (Nat.zero_mul _)
  rw [← List.cons_append, digitsFrom_append, hzeros, Scientific.digits, digitsFrom_toDigits]

/-- Below one, zeros lead. -/
theorem denotes_of_neg (hfirst : s.first < 0) :
    Denotes ⟨['0'], zeroes (-s.first - 1).toNat ++ s.digits, none⟩ s where
  wellFormed := ⟨⟨digits_zeroes 1, digits_append (digits_zeroes _) (digits_toDigits _), by simp⟩,
    .inl rfl⟩
  notInteger := .inl (List.append_ne_nil_of_right_ne_nil _ Nat.toDigits_ne_nil)
  value := by
    have hscale : scale ⟨['0'], zeroes (-s.first - 1).toNat ++ s.digits, none⟩ = s.exponent := by
      simp only [scale, Option.getD_none, List.length_append, zeroes, List.length_replicate]
      rw [Scientific.first] at hfirst ⊢
      omega
    have hcoefficient : coefficient ⟨['0'], zeroes (-s.first - 1).toNat ++ s.digits, none⟩ =
        s.coefficient :=
      digitsFrom_zero_cons _
    rw [hscale, hcoefficient, Scientific.value]

variable (hs : 0 < s.coefficient)
include hs

theorem head?_digits : s.digits.head? ≠ some '0' := head?_toDigits hs

/-- A whole number has a point and a zero after it. -/
theorem denotes_of_whole (hexponent : 0 ≤ s.exponent) :
    Denotes ⟨s.digits ++ zeroes s.exponent.toNat, ['0'], none⟩ s where
  wellFormed := by
    have hne : s.digits ≠ [] := Nat.toDigits_ne_nil
    refine ⟨⟨digits_append (digits_toDigits _) (digits_zeroes _), digits_zeroes 1,
      List.append_ne_nil_of_left_ne_nil hne _⟩, .inr ?_⟩
    rw [List.head?_append_of_ne_nil _ hne]
    exact head?_digits hs
  notInteger := .inl (by simp)
  value := by
    have hcoefficient : coefficient ⟨s.digits ++ zeroes s.exponent.toNat, ['0'], none⟩ =
        s.coefficient * 10 ^ s.exponent.toNat * 10 := by
      rw [coefficient, digitsFrom_append, digitsFrom_append, digitsFrom_zeroes, Scientific.digits,
        digitsFrom_toDigits]
      exact digitsFrom_zeroes _ 1
    have hscale : scale ⟨s.digits ++ zeroes s.exponent.toNat, ['0'], none⟩ = -1 := rfl
    obtain ⟨k, hk⟩ := Int.eq_ofNat_of_zero_le hexponent
    rw [hcoefficient, hscale, Scientific.value, hk]
    push_cast
    simp

/-- The point stands between two digits. -/
theorem denotes_of_split {k : Nat} (hk : 0 < k) (hlength : k < s.digits.length)
    (hexponent : s.exponent = k - s.digits.length) :
    Denotes ⟨s.digits.take k, s.digits.drop k, none⟩ s where
  wellFormed := by
    have hdigits : Digits s.digits := digits_toDigits _
    refine ⟨⟨fun c hc => hdigits c (List.mem_of_mem_take hc),
      fun c hc => hdigits c (List.mem_of_mem_drop hc), ?_⟩, .inr ?_⟩
    · rw [Ne, List.take_eq_nil_iff]
      rintro (hzero | hnil)
      · omega
      · exact Nat.toDigits_ne_nil hnil
    · rw [List.head?_take, if_neg (by omega)]
      exact head?_digits hs
  notInteger := .inl (by simpa using hlength)
  value := by
    have hcoefficient : coefficient ⟨s.digits.take k, s.digits.drop k, none⟩ = s.coefficient := by
      rw [coefficient, List.take_append_drop, Scientific.digits, digitsFrom_toDigits]
    have hscale : scale ⟨s.digits.take k, s.digits.drop k, none⟩ = s.exponent := by
      simp only [scale, Option.getD_none, List.length_drop]
      omega
    rw [hcoefficient, hscale, Scientific.value]

/-- One digit stands before the point, and the exponent is written. -/
theorem denotes_of_exponent {d : Char} {rest : List Char} (hdigits : s.digits = d :: rest) :
    Denotes ⟨[d], rest, some s.first⟩ s where
  wellFormed := by
    have hall : Digits (d :: rest) := hdigits ▸ digits_toDigits _
    have hhead := head?_digits hs
    rw [hdigits] at hhead
    exact ⟨⟨fun c hc => hall c (by simp_all), fun c hc => hall c (List.mem_cons_of_mem _ hc),
      by simp⟩, .inr hhead⟩
  notInteger := .inr rfl
  value := by
    have hcoefficient : coefficient ⟨[d], rest, some s.first⟩ = s.coefficient := by
      rw [coefficient, List.singleton_append, ← hdigits, Scientific.digits, digitsFrom_toDigits]
    have hscale : scale ⟨[d], rest, some s.first⟩ = s.exponent := by
      simp only [scale, Option.getD_some, Scientific.first, hdigits, List.length_cons]
      omega
    rw [hcoefficient, hscale, Scientific.value]

end Numeral

theorem write_exact (s : Scientific) :
    Layout.exact.write s = if -4 ≤ s.normalize.first && s.normalize.first ≤ 15 then
      if s.normalize.first < 0 then
        '0' :: '.' :: (zeroes (-s.normalize.first - 1).toNat ++ s.normalize.digits)
      else if s.normalize.digits.length ≤ (s.normalize.first + 1).toNat then
        s.normalize.digits ++ zeroes ((s.normalize.first + 1).toNat - s.normalize.digits.length) ++
          ['.', '0']
      else s.normalize.digits.take (s.normalize.first + 1).toNat ++
        '.' :: s.normalize.digits.drop (s.normalize.first + 1).toNat
    else match s.normalize.digits with
      | [] => []
      | d :: rest =>
        (if rest.isEmpty then [d] else d :: '.' :: rest) ++
          'e' :: exponentText s.normalize.first := rfl

/-- Every positive decimal is written as a numeral that stands for it. -/
theorem exists_numeral {s : Scientific} (hs : 0 < s.coefficient) :
    ∃ n : Numeral, n.chars = Layout.exact.write s ∧ n.Denotes s := by
  have hpos := Scientific.normalize_pos hs
  suffices hnormal : ∃ n : Numeral, n.chars = Layout.exact.write s ∧ n.Denotes s.normalize by
    obtain ⟨n, hchars, hn⟩ := hnormal
    exact ⟨n, hchars, hn.wellFormed, hn.notInteger, hn.value.trans s.value_normalize⟩
  rw [write_exact]
  generalize s.normalize = s at *
  have hlength : 0 < s.digits.length := Nat.length_toDigits_pos
  have hfirst : s.first = s.exponent + s.digits.length - 1 := rfl
  split
  · split
    · rename_i hneg
      refine ⟨_, ?_, Numeral.denotes_of_neg hneg⟩
      simp [Numeral.chars, Numeral.fractionChars, Numeral.exponentChars, Scientific.digits,
        Nat.toDigits_ne_nil]
    · split
      · rename_i hwhole
        refine ⟨_, ?_, Numeral.denotes_of_whole hpos (by omega)⟩
        have hzeros : (s.first + 1).toNat - s.digits.length = s.exponent.toNat := by omega
        simp [Numeral.chars, Numeral.fractionChars, Numeral.exponentChars, hzeros]
      · rename_i hnonneg hsplit
        refine ⟨_, ?_, Numeral.denotes_of_split hpos (k := (s.first + 1).toNat) (by omega)
          (by omega) (by omega)⟩
        have hne : ¬s.digits.length ≤ (s.first + 1).toNat := hsplit
        simp [Numeral.chars, Numeral.fractionChars, Numeral.exponentChars, hne]
  · split
    · rename_i hnil
      rw [hnil] at hlength
      cases hlength
    · rename_i d rest hdigits
      refine ⟨_, ?_, Numeral.denotes_of_exponent hpos hdigits⟩
      cases rest <;> simp [Numeral.chars, Numeral.fractionChars, Numeral.exponentChars]

/-! ### Floats -/

/-- A numeral that shows a float: its text, but for the sign, from which its magnitude is read. -/
structure Numeral.Shows (n : Numeral) (x : Float) (negative : Bool) : Prop where
  wellFormed : n.WellFormed
  notInteger : n.fraction ≠ [] ∨ n.exponent.isSome
  text : floatText x = String.ofList (if negative then '-' :: n.chars else n.chars)
  reads : x = if negative then -ofDecimal n.coefficient n.scale else ofDecimal n.coefficient n.scale

theorem eq_of_magnitude {x y : Float} {b : Binary} (hx : Binary.ofFloat? x = some b)
    (hy : Binary.ofFloat? y = some ⟨false, b.mantissa, b.exponent⟩) :
    x = if b.negative then -y else y := by
  refine eq_of_ofFloat? hx ?_
  obtain ⟨negative, m, e⟩ := b
  cases negative
  · exact hy
  · exact ofFloat?_neg hy

theorem exists_shows {x : Float} {b : Binary} (hx : Binary.ofFloat? x = some b) :
    ∃ n : Numeral, n.Shows x b.negative := by
  obtain ⟨hcanonical, hgreatest⟩ := canonical_of_ofFloat? hx
  rcases Nat.eq_zero_or_pos b.mantissa with hzero | hm
  · have hexponent : b.exponent = -1074 := hcanonical.normal.resolve_left (by omega)
    refine ⟨⟨['0'], ['0'], none⟩, ⟨⟨digits_zeroes 1, digits_zeroes 1, by simp⟩, .inl rfl⟩,
      .inl (by simp), ?_, eq_of_magnitude hx ?_⟩
    · simp only [floatText, Layout.text, hx, hzero]
      rfl
    · rw [hzero, hexponent]
      decide +kernel
  · have hnearest := nearest_shortest hm hcanonical
    obtain ⟨hlow, -⟩ := hnearest.range hcanonical hm hgreatest
    have hvalue : 0 < (shortest b).value := lt_trans (by positivity) hlow
    have hpos : 0 < (shortest b).coefficient := by
      rw [Nat.pos_iff_ne_zero]
      intro hzero
      simp [Scientific.value, hzero] at hvalue
    obtain ⟨n, hchars, hn⟩ := exists_numeral hpos
    have hcoefficient : 0 < n.coefficient := by
      rw [Nat.pos_iff_ne_zero]
      intro hzero
      rw [← hn.value, hzero] at hvalue
      simp at hvalue
    refine ⟨n, hn.wellFormed, hn.notInteger, ?_, eq_of_magnitude hx ?_⟩
    · simp only [floatText, Layout.text, hx, if_neg hm.ne', hchars]
    · refine ofFloat?_ofDecimal hcoefficient hm hcanonical hgreatest ?_
      rw [hn.value]
      exact hnearest

/-- A float is read from the numeral that shows it. -/
theorem Numeral.Shows.readFloat? {n : Numeral} {x : Float} {negative : Bool}
    (h : n.Shows x negative) : readFloat? (floatText x) = some x := by
  rw [h.text, h.wellFormed.readFloat?, ← h.reads]

/-- The text of a float is read as the float. -/
theorem readFloat?_floatText (x : Float) : readFloat? (floatText x) = some x := by
  cases h : Binary.ofFloat? x with
  | some b =>
    obtain ⟨n, hn⟩ := exists_shows h
    exact hn.readFloat?
  | none =>
    rcases eq_of_ofFloat?_eq_none h with rfl | rfl | rfl <;> decide +kernel

theorem floatText_injective : Function.Injective floatText := by
  intro x y h
  have hread := readFloat?_floatText x
  rw [h, readFloat?_floatText y] at hread
  exact (Option.some.inj hread).symm

/-- A float does not look like an integer. -/
theorem exists_mark_floatText (x : Float) :
    ∃ c ∈ (floatText x).toList, isAsciiDigit c = false ∧ c ≠ '-' := by
  cases h : Binary.ofFloat? x with
  | some b =>
    obtain ⟨n, hn⟩ := exists_shows h
    have hmem : ∃ c ∈ n.chars, isAsciiDigit c = false ∧ c ≠ '-' := by
      rcases hn.notInteger with hfraction | hexponent
      · refine ⟨'.', ?_, by decide⟩
        simp [Numeral.chars, Numeral.fractionChars, hfraction]
      · obtain ⟨e, he⟩ := Option.isSome_iff_exists.mp hexponent
        refine ⟨'e', ?_, by decide⟩
        simp [Numeral.chars, Numeral.exponentChars, he]
    obtain ⟨c, hc, hmark⟩ := hmem
    refine ⟨c, ?_, hmark⟩
    rw [hn.text, String.toList_ofList]
    split
    · exact List.mem_cons_of_mem _ hc
    · exact hc
  | none =>
    rcases eq_of_ofFloat?_eq_none h with rfl | rfl | rfl
    · exact ⟨'n', by decide +kernel, by decide⟩
    · exact ⟨'n', by decide +kernel, by decide⟩
    · exact ⟨'n', by decide +kernel, by decide⟩

end DesignTokens.Decimal
