import DesignTokens.Proofs.Decimal.Digits
import DesignTokens.Proofs.Opacity.Scans

/-!
Opacity modifiers of sources. A variable stands for one pair of a token and a percentage, so that a
source has the pairs that its words have.
-/
namespace DesignTokens.OpacityModifier

open Text

variable {m m' : OpacityModifier} {ms : List OpacityModifier}

/-! ### Variables -/

theorem toList_toString (n : Nat) : (toString n).toList = Nat.toDigits 10 n := by
  rw [Nat.toString_eq_ofList_toDigits, String.toList_ofList]

/-- What follows the last hyphen of a variable is the percentage. -/
theorem eq_of_append_toDigits {as cs : List Char} {n k : Nat}
    (h : as ++ '-' :: Nat.toDigits 10 n = cs ++ '-' :: Nat.toDigits 10 k) : as = cs ∧ n = k := by
  have hlast : ∀ (as : List Char) (n : Nat),
      (as ++ '-' :: Nat.toDigits 10 n).reverse.takeWhile isAsciiDigit = (Nat.toDigits 10 n).reverse ∧
      (as ++ '-' :: Nat.toDigits 10 n).reverse.dropWhile isAsciiDigit = '-' :: as.reverse := by
    intro as n
    have hdigits : ∀ c ∈ (Nat.toDigits 10 n).reverse, isAsciiDigit c := fun c hc =>
      Decimal.digits_toDigits n c (List.mem_reverse.mp hc)
    have hhyphen : ∀ c ∈ ('-' :: as.reverse).head?, isAsciiDigit c = false := by
      simp [isAsciiDigit]
    have hreverse : (as ++ '-' :: Nat.toDigits 10 n).reverse =
        (Nat.toDigits 10 n).reverse ++ '-' :: as.reverse := by
      simp
    rw [hreverse]
    exact ⟨takeWhile_append_stop hdigits hhyphen, dropWhile_append_stop hdigits hhyphen⟩
  obtain ⟨hdigits, hrest⟩ := hlast as n
  rw [h, (hlast cs k).1] at hdigits
  rw [h, (hlast cs k).2] at hrest
  constructor
  · exact (List.reverse_inj.mp (List.cons.inj hrest).2).symm
  · rw [← Decimal.digitsFrom_toDigits n, ← List.reverse_inj.mp hdigits, Decimal.digitsFrom_toDigits]

/-- A variable stands for a token and a percentage. -/
theorem variableName_eq_iff :
    m.variableName = m'.variableName ↔ m.token = m'.token ∧ m.opacity = m'.opacity := by
  constructor
  · intro h
    have hchars := congrArg String.toList h
    simp only [variableName, String.toList_append, toList_toString, List.append_assoc,
      List.append_cancel_left_eq] at hchars
    obtain ⟨htoken, hopacity⟩ := eq_of_append_toDigits hchars
    exact ⟨String.toList_inj.mp htoken, hopacity⟩
  · rintro ⟨htoken, hopacity⟩
    rw [variableName, variableName, htoken, hopacity]

/-! ### Sources -/

/-- The source has the token at the percentage. -/
def Finds (source token : String) (opacity : Nat) : Prop :=
  ∃ m ∈ ofSource source, m.token = token ∧ m.opacity = opacity

/-- What is kept was there, and of the modifiers of each variable one is kept. -/
theorem mem_distinct (ms : List OpacityModifier) : (∀ m ∈ distinct ms, m ∈ ms) ∧
    ∀ m ∈ ms, ∃ m' ∈ distinct ms, m'.variableName = m.variableName := by
  have hfold : ∀ ms kept : List OpacityModifier,
      let all := ms.foldl (fun kept m =>
        if kept.any (·.variableName == m.variableName) then kept else m :: kept) kept
      (∀ m ∈ all, m ∈ kept ∨ m ∈ ms) ∧
        ∀ m, m ∈ kept ∨ m ∈ ms → ∃ m' ∈ all, m'.variableName = m.variableName := by
    intro ms
    induction ms with
    | nil => exact fun kept => ⟨fun m hm => .inl hm, by simpa using fun m hm => ⟨m, hm, rfl⟩⟩
    | cons x ms ih =>
      intro kept
      simp only [List.foldl_cons, List.mem_cons]
      split
      · rename_i hold
        obtain ⟨y, hy, hsame⟩ := List.any_eq_true.mp hold
        obtain ⟨hfrom, hinto⟩ := ih kept
        refine ⟨fun m hm => (hfrom m hm).imp_right .inr, ?_⟩
        rintro m (hm | rfl | hm)
        · exact hinto m (.inl hm)
        · exact beq_iff_eq.mp hsame ▸ hinto y (.inl hy)
        · exact hinto m (.inr hm)
      · obtain ⟨hfrom, hinto⟩ := ih (x :: kept)
        simp only [List.mem_cons] at hfrom hinto
        refine ⟨fun m hm => ?_, fun m hm => hinto m ?_⟩
        · rcases hfrom m hm with (rfl | hm) | hm
          · exact .inr (.inl rfl)
          · exact .inl hm
          · exact .inr (.inr hm)
        · tauto
  obtain ⟨hfrom, hinto⟩ := hfold ms []
  refine ⟨fun m hm => ?_, fun m hm => ?_⟩
  · simpa using hfrom m (List.mem_reverse.mp hm)
  · obtain ⟨m', hm', hsame⟩ := hinto m (.inr hm)
    exact ⟨m', List.mem_reverse.mpr hm', hsame⟩

/-- A source has what the scans of its words yield, up to one hundred percent. -/
theorem finds_iff {source token : String} {opacity : Nat} : Finds source token opacity ↔
    opacity ≤ 100 ∧ ∃ w ∈ words source, ∃ m ∈ scanAll false w.toList,
      m.token = token ∧ m.opacity = opacity := by
  have hscan : ∀ m, m ∈ scanAll false source.toList ↔
      ∃ w ∈ words source, m ∈ scanAll false w.toList := by
    intro m
    have hwords : scanAll false source.toList =
        (words source).flatMap fun w => scanAll false w.toList := by
      rw [words, List.flatMap_map]
      simpa using scanAll_wordsFrom [] source.toList
    rw [hwords, List.mem_flatMap]
  obtain ⟨hfrom, hinto⟩ := mem_distinct ((scanAll false source.toList).filter (·.opacity ≤ 100))
  constructor
  · rintro ⟨m, hm, rfl, rfl⟩
    obtain ⟨hmem, hle⟩ := List.mem_filter.mp (hfrom m hm)
    obtain ⟨w, hw, hmem⟩ := (hscan m).mp hmem
    exact ⟨of_decide_eq_true hle, w, hw, m, hmem, rfl, rfl⟩
  · rintro ⟨hle, w, hw, m, hmem, rfl, rfl⟩
    have hkept : m ∈ (scanAll false source.toList).filter (·.opacity ≤ 100) :=
      List.mem_filter.mpr ⟨(hscan m).mpr ⟨w, hw, hmem⟩, decide_eq_true hle⟩
    obtain ⟨m', hm', hsame⟩ := hinto m hkept
    exact ⟨m', hm', variableName_eq_iff.mp hsame⟩

end DesignTokens.OpacityModifier
