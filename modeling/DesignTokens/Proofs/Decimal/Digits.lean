import DesignTokens.Decimal.Layout
import DesignTokens.Decimal.Reader
import Mathlib

/-!
Digits of whole numbers in base ten, and the numbers that digits denote.
-/
namespace DesignTokens.Decimal

open Text (isAsciiDigit)

theorem isAsciiDigit_iff {c : Char} : isAsciiDigit c ↔ 48 ≤ c.toNat ∧ c.toNat ≤ 57 := by
  rw [isAsciiDigit, Bool.and_eq_true, decide_eq_true_eq, decide_eq_true_eq]
  rfl

/-- A text of digits. -/
def Digits (cs : List Char) : Prop := ∀ c ∈ cs, isAsciiDigit c

instance (cs : List Char) : Decidable (Digits cs) := List.decidableBAll _ cs

theorem digits_append {cs ds : List Char} (hcs : Digits cs) (hds : Digits ds) :
    Digits (cs ++ ds) := by
  intro c hc
  rcases List.mem_append.mp hc with hc | hc
  · exact hcs c hc
  · exact hds c hc

theorem digits_toDigits (n : Nat) : Digits (Nat.toDigits 10 n) := by
  intro c hc
  have hdigit := Nat.isDigit_of_mem_toDigits (by decide) (by decide) hc
  simpa [isAsciiDigit, Char.isDigit, Char.le_def] using hdigit

theorem digits_zeroes (n : Nat) : Digits (zeroes n) := by
  intro c hc
  rw [(List.mem_replicate.mp hc).2]
  rfl

/-! ### The number that digits denote -/

theorem hexValue?_of_isAsciiDigit {c : Char} (hc : isAsciiDigit c) :
    hexValue? c = some (c.toNat - 48) := by
  rw [hexValue?]
  exact if_pos hc

theorem digitsFrom_eq {cs : List Char} (h : Digits cs) (n : Nat) :
    digitsFrom 10 n cs = Nat.ofDigitChars 10 cs n := by
  induction cs generalizing n with
  | nil => rfl
  | cons c cs ih =>
    obtain ⟨hc, hcs⟩ := List.forall_mem_cons.mp h
    rw [Nat.ofDigitChars_cons, ← ih hcs, digitsFrom, List.foldl_cons, hexValue?_of_isAsciiDigit hc,
      Nat.mul_comm]
    rfl

theorem digitsFrom_append (n : Nat) (cs ds : List Char) :
    digitsFrom 10 n (cs ++ ds) = digitsFrom 10 (digitsFrom 10 n cs) ds :=
  List.foldl_append

theorem digitsFrom_toDigits (n : Nat) : digitsFrom 10 0 (Nat.toDigits 10 n) = n := by
  rw [digitsFrom_eq (digits_toDigits n), Nat.ofDigitChars_ten_toDigits]

theorem digitsFrom_zeroes (n k : Nat) : digitsFrom 10 n (zeroes k) = n * 10 ^ k := by
  rw [digitsFrom_eq (digits_zeroes k), zeroes, Nat.ofDigitChars_replicate_zero, Nat.mul_comm]

/-! ### The number of digits -/

theorem lt_pow_length (n : Nat) : n < 10 ^ (Nat.toDigits 10 n).length :=
  (Nat.length_toDigits_le_iff (by decide) Nat.length_toDigits_pos).mp (Nat.le_refl _)

theorem pow_length_le {n : Nat} (hn : 0 < n) : 10 ^ ((Nat.toDigits 10 n).length - 1) ≤ n := by
  by_contra hlt
  rcases Nat.eq_zero_or_pos ((Nat.toDigits 10 n).length - 1) with hzero | hpos
  · rw [hzero] at hlt
    omega
  · have hlength := (Nat.length_toDigits_le_iff (by decide) hpos).mpr (Nat.lt_of_not_le hlt)
    omega

theorem digitsFrom_lt {cs : List Char} (h : Digits cs) (n : Nat) :
    digitsFrom 10 n cs < (n + 1) * 10 ^ cs.length := by
  induction cs generalizing n with
  | nil => simp [digitsFrom]
  | cons c cs ih =>
    obtain ⟨hc, hcs⟩ := List.forall_mem_cons.mp h
    have hdigit : c.toNat ≤ 57 := (isAsciiDigit_iff.mp hc).2
    have hstep : digitsFrom 10 n (c :: cs) = digitsFrom 10 (n * 10 + (c.toNat - 48)) cs := by
      rw [digitsFrom, List.foldl_cons, hexValue?_of_isAsciiDigit hc]
      rfl
    calc digitsFrom 10 n (c :: cs) < (n * 10 + (c.toNat - 48) + 1) * 10 ^ cs.length :=
          hstep ▸ ih hcs _
      _ ≤ (n + 1) * 10 * 10 ^ cs.length := Nat.mul_le_mul_right _ (by omega)
      _ = (n + 1) * 10 ^ (c :: cs).length := by
          rw [List.length_cons, Nat.pow_succ, Nat.mul_assoc, Nat.mul_comm 10]

/-- No number but zero starts with a zero. -/
theorem head?_toDigits {n : Nat} (hn : 0 < n) : (Nat.toDigits 10 n).head? ≠ some '0' := by
  intro hhead
  obtain ⟨cs, hcs⟩ : ∃ cs, Nat.toDigits 10 n = '0' :: cs := List.head?_eq_some_iff.mp hhead
  have hdigits : Digits cs := fun c hc => digits_toDigits n c (hcs ▸ List.mem_cons_of_mem _ hc)
  have hvalue : digitsFrom 10 0 cs = n := by
    have hread := digitsFrom_toDigits n
    rw [hcs] at hread
    exact hread
  have hlow := pow_length_le hn
  have hhigh := digitsFrom_lt hdigits 0
  rw [hcs, List.length_cons, Nat.add_sub_cancel] at hlow
  omega

/-- An integer from its sign and its magnitude. -/
theorem signed_natAbs (k : Int) :
    (if decide (k < 0) then -(k.natAbs : Int) else k.natAbs) = k := by
  split
  · rename_i hk
    have hk := of_decide_eq_true hk
    omega
  · rename_i hk
    have hk := of_decide_eq_false (Bool.eq_false_iff.mpr hk)
    omega

end DesignTokens.Decimal
