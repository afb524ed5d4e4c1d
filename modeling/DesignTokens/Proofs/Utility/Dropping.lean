import DesignTokens.Proofs.Utility.Updates

/-!
Dropped tokens. The warnings of a class string are those of its words, each parsed alone, and the
words that have one leave no trace: without them the same appearance comes out, states included.
-/
namespace DesignTokens.Utility

open Text (IsWord)

variable (scales : Theme.Scales) (settings : Settings)

/-- Whether a word is applied when it is parsed alone. -/
def isApplied (w : String) : Bool := (parse scales settings w).warnings.isEmpty

theorem isApplied_iff {w : String} (h : IsWord w) :
    isApplied scales settings w = !(outcome scales settings (Token.ofString w)).isDropped := by
  rw [isApplied, parse_of_isWord scales settings h]
  cases outcome scales settings (Token.ofString w) <;> rfl

end DesignTokens.Utility
