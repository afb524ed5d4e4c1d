import DesignTokens.Json.Writer
import DesignTokens.Proofs.Decimal.Written

/-!
The characters of JSON text: whatever a value holds, its text is lines of printable ASCII.
-/
namespace DesignTokens.Json

open Decimal (Figures)

/-- Lines of printable ASCII. -/
def AsciiLines (cs : List Char) : Prop := ∀ c ∈ cs, c = '\n' ∨ 32 ≤ c.toNat ∧ c.toNat < 127

instance (cs : List Char) : Decidable (AsciiLines cs) :=
  List.decidableBAll _ cs

@[simp] theorem asciiLines_nil : AsciiLines [] := by simp [AsciiLines]

@[simp] theorem asciiLines_cons {c : Char} {cs : List Char} :
    AsciiLines (c :: cs) ↔ (c = '\n' ∨ 32 ≤ c.toNat ∧ c.toNat < 127) ∧ AsciiLines cs :=
  List.forall_mem_cons

@[simp] theorem asciiLines_append {cs ds : List Char} :
    AsciiLines (cs ++ ds) ↔ AsciiLines cs ∧ AsciiLines ds :=
  List.forall_mem_append

theorem AsciiLines.of_figures {cs : List Char} (h : Figures cs) : AsciiLines cs := by
  intro c hc
  have hrange := Decimal.toNat_of_isFigure (h c hc)
  exact .inr ⟨by omega, by omega⟩

/-! ### Numbers and strings -/

theorem asciiLines_numberText (n : Number) : AsciiLines (numberText n).toList := by
  cases n with
  | int k =>
    change AsciiLines (toString k).toList
    rw [Decimal.toString_int, String.toList_ofList]
    exact .of_figures (Decimal.figures_signed _ (Decimal.digits_toDigits k.natAbs).figures)
  | float x =>
    rw [numberText]
    split
    · decide
    · split
      · rename_i hfinite
        obtain ⟨b, hb⟩ := Option.isSome_iff_exists.mp hfinite
        obtain ⟨n, hn⟩ := Decimal.exists_shows hb
        rw [hn.text, String.toList_ofList]
        exact .of_figures (Decimal.figures_signed _ hn.wellFormed.figures)
      · split <;> decide
  | overflow => decide

theorem toNat_hexDigit : ∀ d : Fin 16, 32 ≤ (Text.hexDigit d).toNat ∧
    (Text.hexDigit d).toNat < 127 := by
  decide

theorem asciiLines_hex (width n : Nat) : AsciiLines (Text.hex width n) := by
  induction width generalizing n with
  | zero => exact asciiLines_nil
  | succ width ih =>
    have hdigit := toNat_hexDigit ⟨n % 16, Nat.mod_lt n (by decide)⟩
    simpa [Text.hex] using ⟨ih _, .inr hdigit⟩

theorem asciiLines_escapeUnit (n : Nat) : AsciiLines (escapeUnit n) := by
  simpa [escapeUnit] using asciiLines_hex 4 n

theorem asciiLines_escapeChar (c : Char) : AsciiLines (escapeChar c) := by
  rw [escapeChar]
  split_ifs with h₁ h₂ h₃ h₄ h₅ h₆ h₇ hplain hunit
  · simp
  · simp
  · simp
  · simp
  · simp
  · simp
  · simp
  · simp_all
  · exact asciiLines_escapeUnit _
  · exact asciiLines_append.mpr ⟨asciiLines_escapeUnit _, asciiLines_escapeUnit _⟩

theorem asciiLines_stringText (s : String) : AsciiLines (stringText s).toList := by
  have hbody : AsciiLines (s.toList.flatMap escapeChar) := by
    intro c hc
    obtain ⟨d, -, hd⟩ := List.mem_flatMap.mp hc
    exact asciiLines_escapeChar d c hd
  simpa [stringText] using hbody

/-! ### Values -/

theorem asciiLines_indentation (level : Nat) : AsciiLines (indentation level).toList := by
  intro c hc
  rw [indentation, String.toList_ofList] at hc
  rw [(List.mem_replicate.mp hc).2]
  decide

theorem asciiLines_intercalate {separator : String} (hseparator : AsciiLines separator.toList)
    {lines : List String} (h : ∀ s ∈ lines, AsciiLines s.toList) :
    AsciiLines (separator.intercalate lines).toList := by
  induction lines with
  | nil => simp
  | cons line lines ih =>
    obtain ⟨hline, hlines⟩ := List.forall_mem_cons.mp h
    cases lines with
    | nil => simpa using hline
    | cons next lines => simpa [hline, hseparator] using ih hlines

theorem asciiLines_block {opening closing : String} (hopening : AsciiLines opening.toList)
    (hclosing : AsciiLines closing.toList) (level : Nat) {lines : List String}
    (h : ∀ s ∈ lines, AsciiLines s.toList) :
    AsciiLines (block opening closing level lines).toList := by
  rw [block]
  split
  · simpa using ⟨hopening, hclosing⟩
  · have hbreak : AsciiLines "\n".toList := by decide
    have hcomma : AsciiLines ",\n".toList := by decide
    have hseparator : AsciiLines (",\n" ++ indentation (level + 1)).toList := by
      rw [String.toList_append]
      exact asciiLines_append.mpr ⟨hcomma, asciiLines_indentation _⟩
    have hlines := asciiLines_intercalate hseparator h
    simp only [String.toList_append, asciiLines_append]
    exact ⟨⟨⟨⟨⟨⟨hopening, hbreak⟩, asciiLines_indentation _⟩, by simpa using hlines⟩, hbreak⟩,
      asciiLines_indentation _⟩, hclosing⟩

mutual

theorem asciiLines_prettyAt (level : Nat) : (v : Json) → AsciiLines (prettyAt level v).toList
  | .null => (by decide : AsciiLines "null".toList)
  | .bool true => (by decide : AsciiLines "true".toList)
  | .bool false => (by decide : AsciiLines "false".toList)
  | .num n => asciiLines_numberText n
  | .str s => asciiLines_stringText s
  | .arr items => asciiLines_block (by decide) (by decide) level
      (asciiLines_prettyItems (level + 1) items)
  | .obj fields => asciiLines_block (by decide) (by decide) level
      (asciiLines_prettyFields (level + 1) fields)

theorem asciiLines_prettyItems (level : Nat) :
    (items : List Json) → ∀ s ∈ prettyItems level items, AsciiLines s.toList
  | [] => by simp [prettyItems]
  | v :: items => List.forall_mem_cons.mpr
      ⟨asciiLines_prettyAt level v, asciiLines_prettyItems level items⟩

theorem asciiLines_prettyFields (level : Nat) :
    (fields : Table Json) → ∀ s ∈ prettyFields level fields, AsciiLines s.toList
  | [] => by simp [prettyFields]
  | (name, v) :: fields => List.forall_mem_cons.mpr ⟨by
      have hcolon : AsciiLines ": ".toList := by decide
      simp only [String.toList_append, asciiLines_append]
      exact ⟨⟨asciiLines_stringText name, hcolon⟩, asciiLines_prettyAt level v⟩,
      asciiLines_prettyFields level fields⟩

end

/-- Neither a carriage return nor a byte order mark is written. -/
theorem not_mem_pretty {c : Char} (h : ¬AsciiLines [c]) (v : Json) :
    c ∉ (v.pretty ++ "\n").toList := by
  intro hc
  rw [String.toList_append] at hc
  rcases List.mem_append.mp hc with hc | hc
  · exact h (by simpa using asciiLines_prettyAt 0 v c hc)
  · obtain rfl : c = '\n' := by simpa using hc
    exact h (by simp)

end DesignTokens.Json
