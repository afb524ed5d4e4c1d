import DesignTokens.Proofs.Text.Words
import DesignTokens.Utility.Parse

/-!
From class strings to tokens and from tokens to what they leave. A class string is parsed as its
words are; a word that stands alone does to an empty appearance what it does anywhere.
-/
namespace DesignTokens.Utility

open Text (IsWord)

@[simp] theorem raw_ofString (w : String) : (Token.ofString w).raw = w := by
  change String.ofList w.toList = w
  simp

theorem tokens_of_isWord {w : String} (h : IsWord w) : tokens w = [Token.ofString w] := by
  rw [tokens, Text.words_of_isWord h]
  rfl

/-- A token of a class string is the token of one of its words. -/
theorem mem_tokens {t : Token} {classes : String} (h : t ∈ tokens classes) :
    IsWord t.raw ∧ t.raw ∈ Text.words classes ∧ Token.ofString t.raw = t := by
  obtain ⟨w, hw, rfl⟩ := List.mem_map.mp h
  simpa [hw] using Text.isWord_of_mem_words hw

/-- The text of a part and its rest, where a text is split into more than one part. -/
theorem splitFrom_eq_cons_cons {sep : Char} {depth : Nat} {part cs p q : List Char}
    {ps : List (List Char)} (h : splitFrom sep depth part cs = p :: q :: ps) :
    ∃ rest, part.reverse ++ cs = p ++ sep :: rest ∧ splitOutside sep rest = q :: ps := by
  induction cs generalizing depth part with
  | nil => simp [splitFrom] at h
  | cons c cs ih =>
    simp only [splitFrom] at h
    split at h
    · rename_i hc
      simp only [Bool.and_eq_true, beq_iff_eq] at hc
      obtain ⟨rfl, hdepth⟩ := hc
      rw [hdepth] at h
      obtain ⟨rfl, hrest⟩ := List.cons.inj h
      exact ⟨cs, rfl, hrest⟩
    · obtain ⟨rest, htext, hrest⟩ := ih h
      exact ⟨rest, by simpa using htext, hrest⟩

theorem eq_pair_of_dropLast {β : Type} {x : β} {xs : List β} (hne : xs ≠ [])
    (h : xs.dropLast = [x]) : ∃ y, xs = [x, y] := by
  have hlast := List.dropLast_concat_getLast hne
  rw [h] at hlast
  exact ⟨xs.getLast hne, hlast.symm⟩

/-- A word with one variant is that variant, a colon and a word without variants, which differs
from it in nothing else. -/
theorem ofChars_of_variants {raw : List Char} {v : String} (hv : v ≠ "")
    (h : (Token.ofChars raw).variants = [v]) :
    ∃ rest, raw = v.toList ++ ':' :: rest ∧
      Token.ofChars rest = { Token.ofChars raw with raw := String.ofList rest, variants := [] } := by
  have hvariants : (splitOutside ':' raw).dropLast.map String.ofList = [v] := h
  obtain ⟨vs, hparts, rfl⟩ := List.map_eq_singleton_iff.mp hvariants
  obtain ⟨base, hsplit⟩ := eq_pair_of_dropLast (splitFrom_ne_nil _ _ _ _) hparts
  obtain ⟨rest, htext, hrest⟩ := splitFrom_eq_cons_cons hsplit
  have hvs : vs.isEmpty = false := by
    cases vs with
    | nil => exact absurd rfl hv
    | cons c cs => rfl
  have hsplit' : splitOutside ':' raw = [vs, base] := hsplit
  refine ⟨rest, by simpa using htext, ?_⟩
  simp only [Token.ofChars, hsplit', hrest]
  simp [hvs]

end DesignTokens.Utility
