import DesignTokens.Proofs.Decimal.Digits
import DesignTokens.Proofs.Text.Words

/-!
Numerals: digits with or without a point and more digits, and an exponent. Decimals are written as
numerals, and a numeral is read as the decimal that it denotes.
-/
namespace DesignTokens.Decimal

open Text (isAsciiDigit)

structure Numeral where
  whole : List Char
  fraction : List Char := []
  exponent : Option Int := none

namespace Numeral

variable (n : Numeral)

def fractionChars : List Char := if n.fraction.isEmpty then [] else '.' :: n.fraction

def exponentChars : List Char :=
  match n.exponent with
  | none => []
  | some e => 'e' :: exponentText e

def chars : List Char := n.whole ++ (n.fractionChars ++ n.exponentChars)

/-- The number that all digits denote. -/
def coefficient : Nat := digitsFrom 10 0 (n.whole ++ n.fraction)

/-- The place of the last digit. -/
def scale : Int := n.exponent.getD 0 - n.fraction.length

/-- There is a digit before the point. -/
structure Readable : Prop where
  whole : Digits n.whole
  fraction : Digits n.fraction
  ne_nil : n.whole ≠ []

/-- The whole part does not start with a zero unless it is zero. -/
structure WellFormed : Prop extends Readable n where
  leading : n.whole = ['0'] ∨ n.whole.head? ≠ some '0'

end Numeral

/-! ### Characters -/

/-- A character of a numeral with its sign. -/
def isFigure (c : Char) : Bool :=
  isAsciiDigit c || c == '.' || c == 'e' || c == '+' || c == '-'

def Figures (cs : List Char) : Prop := ∀ c ∈ cs, isFigure c

theorem isFigure_of_isAsciiDigit {c : Char} (h : isAsciiDigit c) : isFigure c := by
  simp [isFigure, h]

/-- Figures are ASCII characters, and neither blanks, underscores, quotes nor backslashes. -/
theorem toNat_of_isFigure {c : Char} (h : isFigure c) :
    43 ≤ c.toNat ∧ c.toNat ≤ 101 ∧ c ≠ '_' ∧ c ≠ '\\' := by
  simp only [isFigure, Bool.or_eq_true, beq_iff_eq] at h
  rcases h with (((h | rfl) | rfl) | rfl) | rfl
  · obtain ⟨hlow, hhigh⟩ := isAsciiDigit_iff.mp h
    refine ⟨by omega, by omega, ?_, ?_⟩ <;> rintro rfl <;> simp at hhigh
  all_goals decide

theorem Digits.figures {cs : List Char} (h : Digits cs) : Figures cs := fun c hc =>
  isFigure_of_isAsciiDigit (h c hc)

theorem figures_cons {c : Char} {cs : List Char} (hc : isFigure c) (hcs : Figures cs) :
    Figures (c :: cs) := by
  intro d hd
  rcases List.mem_cons.mp hd with rfl | hd
  · exact hc
  · exact hcs d hd

theorem figures_signed {cs : List Char} (negative : Bool) (h : Figures cs) :
    Figures (if negative then '-' :: cs else cs) := by
  split
  · exact figures_cons rfl h
  · exact h

theorem figures_append {cs ds : List Char} (hcs : Figures cs) (hds : Figures ds) :
    Figures (cs ++ ds) := by
  intro c hc
  rcases List.mem_append.mp hc with hc | hc
  · exact hcs c hc
  · exact hds c hc

/-- The exponent of a numeral: a sign and digits. -/
theorem exponentText_eq (e : Int) : ∃ ds, exponentText e = (if e < 0 then '-' else '+') :: ds ∧
    Digits ds ∧ ds ≠ [] ∧ digitsFrom 10 0 ds = e.natAbs := by
  refine ⟨_, rfl, digits_append (digits_zeroes _) (digits_toDigits _), ?_, ?_⟩
  · exact List.append_ne_nil_of_right_ne_nil _ Nat.toDigits_ne_nil
  · rw [digitsFrom_append, digitsFrom_zeroes, Nat.zero_mul, digitsFrom_toDigits]

theorem Numeral.Readable.figures {n : Numeral} (h : n.Readable) : Figures n.chars := by
  refine figures_append h.whole.figures (figures_append ?_ ?_)
  · rw [fractionChars]
    split
    · simp [Figures]
    · exact figures_cons rfl h.fraction.figures
  · rw [exponentChars]
    split
    · simp [Figures]
    · rename_i e _
      obtain ⟨ds, hds, hdigits, -, -⟩ := exponentText_eq e
      rw [hds]
      refine figures_cons rfl (figures_cons ?_ hdigits.figures)
      split <;> rfl

/-! ### Reading -/

theorem plain_of_ascii {cs : List Char} (h : ∀ c ∈ cs, c.toNat < 128) : plain cs = cs :=
  if_pos (List.all_eq_true.mpr fun c hc => decide_eq_true (h c hc))

theorem dropWhile_isPad_of_solid {cs : List Char} (h : ∀ c ∈ cs, isPad c = false) :
    cs.dropWhile isPad = cs := by
  cases cs with
  | nil => rfl
  | cons c cs => rw [List.dropWhile_cons, h c List.mem_cons_self]; rfl

theorem trimPad_of_solid {cs : List Char} (h : ∀ c ∈ cs, isPad c = false) : trimPad cs = cs := by
  have hreverse : ∀ c ∈ cs.reverse, isPad c = false := fun c hc => h c (List.mem_reverse.mp hc)
  rw [trimPad, dropWhile_isPad_of_solid h, dropWhile_isPad_of_solid hreverse, List.reverse_reverse]

theorem isPad_of_isFigure {c : Char} (h : isFigure c) : isPad c = false := by
  have hrange := toNat_of_isFigure h
  have hspace : c ≠ ' ' := by
    rintro rfl
    simp at hrange
  simp [isPad, hspace]
  omega

theorem plain_of_figures {cs : List Char} (h : Figures cs) : plain cs = cs :=
  plain_of_ascii fun c hc => by
    have hrange := toNat_of_isFigure (h c hc)
    omega

theorem trimPad_of_figures {cs : List Char} (h : Figures cs) : trimPad cs = cs :=
  trimPad_of_solid fun c hc => isPad_of_isFigure (h c hc)

theorem dropUnderscores_of_figures {cs : List Char} (h : Figures cs) (isDigit : Char → Bool)
    (afterDigit : Bool) : dropUnderscores isDigit afterDigit cs = some cs := by
  induction cs generalizing afterDigit with
  | nil => rw [dropUnderscores]
  | cons c cs ih =>
    have hc : c ≠ '_' := (toNat_of_isFigure (h c List.mem_cons_self)).2.2.1
    rw [dropUnderscores.eq_3 _ _ _ _ (by simp_all), if_neg (by simpa using hc),
      ih fun d hd => h d (List.mem_cons_of_mem _ hd)]
    rfl

/-- A minus before what has no sign is read as the sign of it. -/
theorem takeSign_signed {cs : List Char} (h : takeSign cs = (false, cs)) (negative : Bool) :
    takeSign (if negative then '-' :: cs else cs) = (negative, cs) := by
  cases negative
  · exact h
  · rfl

section

variable {c : Char} {cs : List Char} (hc : isAsciiDigit c)
include hc

theorem takeSign_digit : takeSign (c :: cs) = (false, c :: cs) := by
  have hrange := isAsciiDigit_iff.mp hc
  rw [takeSign.eq_3]
  · intro rest h
    cases h
    simp at hrange
  · intro rest h
    cases h
    simp at hrange

theorem readName?_digit : readName? (c :: cs) = none := by
  have hrange := isAsciiDigit_iff.mp hc
  have hlower : c.toLower = c := by
    rw [Char.toLower, dif_neg]
    rintro ⟨hupper, -⟩
    have hupper' : 65 ≤ c.toNat := UInt32.le_iff_toNat_le.mp hupper
    omega
  have hi : c ≠ 'i' := by
    rintro rfl
    simp at hrange
  have hn : c ≠ 'n' := by
    rintro rfl
    simp at hrange
  simp [readName?, hlower, hi, hn]

/-- Nothing is trimmed from figures, and there are no underscores between them. -/
theorem readFloat?_figures (negative : Bool) (h : Figures cs) :
    readFloat? (String.ofList (if negative then '-' :: c :: cs else c :: cs)) =
      (readMagnitude? (c :: cs)).map fun x => if negative then -x else x := by
  have hfigures := figures_signed negative (figures_cons (isFigure_of_isAsciiDigit hc) h)
  rw [readFloat?, String.toList_ofList, plain_of_figures hfigures, trimPad_of_figures hfigures,
    dropUnderscores_of_figures hfigures, Option.bind_eq_bind, Option.bind_some,
    takeSign_signed (takeSign_digit hc)]
  simp only [readName?_digit hc]
  cases readMagnitude? (c :: cs) <;> rfl

end

/-- What stops a row of digits. -/
def Stops (cs : List Char) : Prop := ∀ c ∈ cs.head?, isAsciiDigit c = false

theorem takeWhile_digits {ds rest : List Char} (h : Digits ds) (hrest : Stops rest) :
    (ds ++ rest).takeWhile isAsciiDigit = ds :=
  Text.takeWhile_append_stop h hrest

theorem dropWhile_digits {ds rest : List Char} (h : Digits ds) (hrest : Stops rest) :
    (ds ++ rest).dropWhile isAsciiDigit = rest :=
  Text.dropWhile_append_stop h hrest

namespace Numeral

variable (n : Numeral)

theorem stops_exponentChars : Stops n.exponentChars := by
  intro c hc
  rw [exponentChars] at hc
  split at hc
  · cases hc
  · obtain rfl : 'e' = c := by simpa using hc
    rfl

theorem readExponent?_exponentChars : readExponent? n.exponentChars = some (n.exponent.getD 0) := by
  rw [exponentChars]
  split
  · rename_i hnone
    rw [hnone]
    rfl
  · rename_i e hsome
    obtain ⟨ds, hds, hdigits, hne, hvalue⟩ := exponentText_eq e
    have hsign : takeSign ((if e < 0 then '-' else '+') :: ds) = (decide (e < 0), ds) := by
      split <;> simp_all [takeSign]
    have hall : ds.all isAsciiDigit := List.all_eq_true.mpr hdigits
    rw [hsome, hds, readExponent?]
    simp only [hsign, hvalue, hall, List.isEmpty_eq_false_iff.mpr hne, signed_natAbs]
    rfl

variable {n}

theorem stops_rest : Stops (n.fractionChars ++ n.exponentChars) := by
  rw [fractionChars]
  split
  · exact n.stops_exponentChars
  · intro c hc
    obtain rfl : '.' = c := by simpa using hc
    rfl

/-- A numeral is read as the decimal that it denotes. -/
theorem Readable.readMagnitude? (h : n.Readable) :
    readMagnitude? n.chars = some (ofDecimal n.coefficient n.scale) := by
  have hwhole : n.whole.isEmpty = false := List.isEmpty_eq_false_iff.mpr h.ne_nil
  have hcoefficient : digitsFrom 10 (digitsFrom 10 0 n.whole) n.fraction = n.coefficient :=
    (digitsFrom_append 0 n.whole n.fraction).symm
  rw [Decimal.readMagnitude?, chars, takeWhile_digits h.whole stops_rest,
    dropWhile_digits h.whole stops_rest]
  by_cases hfraction : n.fraction = []
  · have hread := n.readExponent?_exponentChars
    have hpoint : n.fractionChars ++ n.exponentChars = n.exponentChars := by
      simp [fractionChars, hfraction]
    rw [hfraction] at hcoefficient
    rw [hpoint, scale, hfraction]
    rcases hexponent : n.exponent with _ | e
    · have hchars : n.exponentChars = [] := by rw [exponentChars, hexponent]
      rw [hchars, hexponent] at hread
      simp only [hchars, hwhole, Bool.false_and, hread, hcoefficient]
      rfl
    · have hchars : n.exponentChars = 'e' :: exponentText e := by rw [exponentChars, hexponent]
      rw [hchars, hexponent] at hread
      rw [hchars, hwhole]
      change (readExponent? ('e' :: exponentText e) >>= fun e => some (ofDecimal
        (digitsFrom 10 (digitsFrom 10 0 n.whole) []) (e - (0 : Nat)))) = _
      rw [hread, hcoefficient]
      rfl
  · have hempty : n.fraction.isEmpty = false := List.isEmpty_eq_false_iff.mpr hfraction
    simp only [fractionChars, hempty, Bool.false_eq_true, if_false, List.cons_append,
      takeWhile_digits h.fraction n.stops_exponentChars,
      dropWhile_digits h.fraction n.stops_exponentChars, hwhole, Bool.false_and,
      readExponent?_exponentChars, hcoefficient]
    rfl

/-- A numeral starts with a digit. -/
theorem Readable.exists_cons (h : n.Readable) :
    ∃ c cs, n.chars = c :: cs ∧ isAsciiDigit c ∧ Figures cs := by
  obtain ⟨c, cs, hwhole⟩ := List.exists_cons_of_ne_nil h.ne_nil
  have hchars : n.chars = c :: (cs ++ (n.fractionChars ++ n.exponentChars)) := by
    rw [chars, hwhole, List.cons_append]
  refine ⟨c, _, hchars, h.whole c (hwhole ▸ List.mem_cons_self), fun d hd => ?_⟩
  exact h.figures d (hchars ▸ List.mem_cons_of_mem _ hd)

theorem Readable.readFloat? (h : n.Readable) (negative : Bool) :
    readFloat? (String.ofList (if negative then '-' :: n.chars else n.chars)) =
      some (if negative then -ofDecimal n.coefficient n.scale
        else ofDecimal n.coefficient n.scale) := by
  obtain ⟨c, cs, hchars, hc, hcs⟩ := h.exists_cons
  have hread := h.readMagnitude?
  rw [hchars] at hread ⊢
  rw [readFloat?_figures hc negative hcs, hread]
  rfl

end Numeral

/-- A whole number of few digits is the float of it. -/
theorem ofDecimal_whole {n : Nat} (h : (Nat.toDigits 10 n).length ≤ 400) :
    ofDecimal n 0 = Float.ofNat n := by
  rw [ofDecimal]
  split
  · rename_i hzero
    subst hzero
    decide +kernel
  · dsimp only
    rw [if_neg (by omega), if_neg (by omega)]
    rfl

/-! ### Integers -/

theorem readInt?_figures {ds : List Char} (h : Digits ds) (hne : ds ≠ [])
    (hlength : ds.length ≤ integerDigitLimit) (negative : Bool) :
    readInt? (String.ofList (if negative then '-' :: ds else ds)) =
      some (if negative then -(digitsFrom 10 0 ds : Int) else digitsFrom 10 0 ds) := by
  obtain ⟨c, cs, rfl⟩ := List.exists_cons_of_ne_nil hne
  have hc := h c List.mem_cons_self
  have hfigures := figures_signed negative h.figures
  have hall : (c :: cs).all isAsciiDigit := List.all_eq_true.mpr h
  rw [readInt?, String.toList_ofList, plain_of_figures hfigures, trimPad_of_figures hfigures,
    takeSign_signed (takeSign_digit hc)]
  simp only [dropUnderscores_of_figures h.figures, Option.bind_eq_bind, Option.bind_some,
    List.isEmpty_cons, hall, Bool.not_true, Bool.or_self, Bool.false_or, decide_eq_true_eq,
    Nat.not_lt.mpr hlength, if_false]

/-- The text of an integer: its digits, and its sign if it is negative. -/
theorem toString_int (n : Int) : toString n = String.ofList
    (if decide (n < 0) then '-' :: Nat.toDigits 10 n.natAbs else Nat.toDigits 10 n.natAbs) := by
  cases n with
  | ofNat m => exact Nat.repr_eq_ofList_toDigits
  | negSucc m =>
    rw [decide_eq_true (Int.negSucc_lt_zero m), if_pos rfl, ← List.singleton_append,
      String.ofList_append, ← Nat.repr_eq_ofList_toDigits]
    rfl

theorem mem_toString_int {n : Int} {c : Char} (h : c ∈ (toString n).toList) :
    isAsciiDigit c ∨ c = '-' := by
  rw [toString_int, String.toList_ofList] at h
  split at h
  · rcases List.mem_cons.mp h with rfl | hc
    · exact .inr rfl
    · exact .inl (digits_toDigits _ c hc)
  · exact .inl (digits_toDigits _ c h)

theorem readInt?_toString {n : Int} (h : n.natAbs < 10 ^ integerDigitLimit) :
    readInt? (toString n) = some n := by
  have hlength : (Nat.toDigits 10 n.natAbs).length ≤ integerDigitLimit :=
    (Nat.length_toDigits_le_iff (by decide) (by decide)).mpr h
  rw [toString_int, readInt?_figures (digits_toDigits _) Nat.toDigits_ne_nil hlength,
    digitsFrom_toDigits, signed_natAbs]

end DesignTokens.Decimal
