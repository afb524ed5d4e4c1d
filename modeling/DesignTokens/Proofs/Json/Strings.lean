import DesignTokens.Json.Reader
import DesignTokens.Json.Writer
import Mathlib.Tactic.Common

/-!
Strings in JSON text. Every character is read from its escapes, so a string is read from its text;
the escapes themselves are printable ASCII.
-/
namespace DesignTokens.Json

open Text (hex hexDigit)

/-! ### Code units -/

theorem hexValue?_hexDigit : ∀ d : Fin 16, Decimal.hexValue? (hexDigit d) = some d.val := by
  decide

/-- The four digits of a code unit, and what they are read as. -/
theorem exists_hex {n : Nat} (hn : n < 0x10000) :
    ∃ a b c d, hex 4 n = [a, b, c, d] ∧ codeUnit? a b c d = some n := by
  have hdigit (k : Nat) : Decimal.hexValue? (hexDigit (k % 16)) = some (k % 16) :=
    hexValue?_hexDigit ⟨k % 16, Nat.mod_lt k (by decide)⟩
  refine ⟨_, _, _, _, rfl, ?_⟩
  simp only [codeUnit?, hdigit, Option.bind_eq_bind, Option.bind_some, Option.some.injEq]
  omega

/-! ### One character -/

/-- A character before those that are read next. -/
def prepend (c : Char) (r : List Char × Cursor) : List Char × Cursor := (c :: r.1, r.2)

variable {start o : Nat} {rest : List Char}

theorem readString_simple {mark c : Char} (h : simpleEscape? mark = some c) :
    readString start o ('\\' :: mark :: rest) =
      (readString start (o + 2) rest).map (prepend c) := by
  have hmark : mark ≠ 'u' := by
    rintro rfl
    cases h
  rw [readString.eq_7]
  · simp only [h]
    cases readString start (o + 2) rest <;> rfl
  all_goals simp_all

theorem readString_plain {c : Char} (hquote : c ≠ '"') (hslash : c ≠ '\\') (hc : 32 ≤ c.toNat) :
    readString start o (c :: rest) = (readString start (o + 1) rest).map (prepend c) := by
  rw [readString.eq_8, if_neg (by omega)]
  · cases readString start (o + 1) rest <;> rfl
  all_goals simp_all

/-- A code unit that opens no pair stands for itself, whatever follows. -/
theorem readString_unit {n : Nat} (hn : n < 0x10000) (hhigh : isHighSurrogate n = false)
    (hrest : rest ≠ []) : readString start o (escapeUnit n ++ rest) =
      (readString start (o + 6) rest).map (prepend (unitChar n)) := by
  obtain ⟨a, b, c, d, hhex, hunit⟩ := exists_hex hn
  obtain ⟨e, cs, rfl⟩ := List.exists_cons_of_ne_nil hrest
  rw [escapeUnit, hhex]
  by_cases hpair : ∃ f g h i j tail, e = '\\' ∧ cs = 'u' :: f :: g :: h :: i :: j :: tail
  · obtain ⟨f, g, h, i, j, tail, rfl, rfl⟩ := hpair
    change readString start o ('\\' :: 'u' :: a :: b :: c :: d :: '\\' :: 'u' :: f :: g :: h :: i ::
      j :: tail) = _
    rw [readString.eq_4]
    simp only [hunit, hhigh]
    cases readString start (o + 6) ('\\' :: 'u' :: f :: g :: h :: i :: j :: tail) <;> rfl
  · change readString start o ('\\' :: 'u' :: a :: b :: c :: d :: e :: cs) = _
    rw [readString.eq_5]
    · simp only [hunit]
      cases readString start (o + 6) (e :: cs) <;> rfl
    · intro f g h i j tail he hcs
      exact hpair ⟨f, g, h, i, j, tail, he, hcs⟩

theorem readString_pair {high low : Nat} (hhigh : isHighSurrogate high) (hlow : isLowSurrogate low)
    (hrest : rest ≠ []) : readString start o (escapeUnit high ++ escapeUnit low ++ rest) =
      (readString start (o + 12) rest).map (prepend (joinSurrogates high low)) := by
  have hrange : high < 0x10000 ∧ low < 0x10000 := by
    simp only [isHighSurrogate, isLowSurrogate, Bool.and_eq_true, decide_eq_true_eq] at hhigh hlow
    omega
  obtain ⟨a, b, c, d, hhex, hunit⟩ := exists_hex hrange.1
  obtain ⟨f, g, h, i, hhex', hunit'⟩ := exists_hex hrange.2
  obtain ⟨j, tail, rfl⟩ := List.exists_cons_of_ne_nil hrest
  rw [escapeUnit, escapeUnit, hhex, hhex']
  change readString start o ('\\' :: 'u' :: a :: b :: c :: d :: '\\' :: 'u' :: f :: g :: h :: i ::
    j :: tail) = _
  rw [readString.eq_4]
  simp only [hunit, hunit', hhigh, hlow]
  cases readString start (o + 12) (j :: tail) <;> rfl

/-- No character is a surrogate. -/
theorem toNat_range (c : Char) :
    c.toNat < 0xD800 ∨ 0xDFFF < c.toNat ∧ c.toNat < 0x110000 := c.valid

theorem unitChar_toNat (c : Char) : unitChar c.toNat = c := by
  have hrange := toNat_range c
  rw [unitChar, if_neg, Char.ofNat_toNat]
  simp only [isHighSurrogate, isLowSurrogate, Bool.or_eq_true, Bool.and_eq_true, decide_eq_true_eq]
  omega

theorem joinSurrogates_toNat {c : Char} (h : 0x10000 ≤ c.toNat) :
    joinSurrogates (0xD800 + (c.toNat - 0x10000) / 0x400) (0xDC00 + (c.toNat - 0x10000) % 0x400) =
      c := by
  have hsum : 0x10000 + (0xD800 + (c.toNat - 0x10000) / 0x400 - 0xD800) * 0x400 +
      (0xDC00 + (c.toNat - 0x10000) % 0x400 - 0xDC00) = c.toNat := by
    omega
  rw [joinSurrogates, hsum, Char.ofNat_toNat]

/-- A character is read from its escapes. -/
theorem readString_escapeChar (start o : Nat) (c : Char) (rest : List Char) (hrest : rest ≠ []) :
    ∃ o', readString start o (escapeChar c ++ rest) =
      (readString start o' rest).map (prepend c) := by
  have hrange := toNat_range c
  have hcontrol {d : Char} {n : Nat} (h : (c.toNat == n) = true) (hd : d.toNat = n) : c = d :=
    Char.toNat_inj.mp ((eq_of_beq h).trans hd.symm)
  rw [escapeChar]
  split_ifs with h₁ h₂ h₃ h₄ h₅ h₆ h₇ hplain hunit
  · exact ⟨_, readString_simple (by rw [eq_of_beq h₁]; rfl)⟩
  · exact ⟨_, readString_simple (by rw [eq_of_beq h₂]; rfl)⟩
  · exact ⟨_, readString_simple (by rw [eq_of_beq h₃]; rfl)⟩
  · exact ⟨_, readString_simple (by rw [eq_of_beq h₄]; rfl)⟩
  · exact ⟨_, readString_simple (by rw [eq_of_beq h₅]; rfl)⟩
  · exact ⟨_, readString_simple (by rw [hcontrol (d := '\x08') h₆ rfl]; rfl)⟩
  · exact ⟨_, readString_simple (by rw [hcontrol (d := '\x0c') h₇ rfl]; rfl)⟩
  · have hprintable : 32 ≤ c.toNat := by simp_all
    exact ⟨_, readString_plain (by simpa using h₁) (by simpa using h₂) hprintable⟩
  · refine ⟨o + 6, ?_⟩
    rw [readString_unit hunit ?_ hrest, unitChar_toNat]
    simp only [isHighSurrogate, Bool.and_eq_false_iff, decide_eq_false_iff_not]
    omega
  · refine ⟨o + 12, ?_⟩
    rw [readString_pair ?_ ?_ hrest, joinSurrogates_toNat (by omega)]
    all_goals
      simp only [isHighSurrogate, isLowSurrogate, Bool.and_eq_true, decide_eq_true_eq]
      omega

/-! ### Whole strings -/

/-- A string is read from its text, up to the closing quote. -/
theorem readString_flatMap (start o : Nat) (cs rest : List Char) :
    ∃ o', readString start o (cs.flatMap escapeChar ++ '"' :: rest) = .ok (cs, ⟨o', rest⟩) := by
  induction cs generalizing o with
  | nil => exact ⟨_, readString.eq_2 ..⟩
  | cons c cs ih =>
    obtain ⟨o', hc⟩ := readString_escapeChar start o c (cs.flatMap escapeChar ++ '"' :: rest)
      (by simp)
    obtain ⟨o'', hcs⟩ := ih o'
    refine ⟨o'', ?_⟩
    rw [List.flatMap_cons, List.append_assoc, hc, hcs]
    rfl

end DesignTokens.Json
