import DesignTokens.Proofs.Text.Words
import DesignTokens.Text.Casing
import Mathlib.Data.List.Basic
import Mathlib.Data.Set.Function

/-!
Names in two spellings. A name of small words that are joined by underscores is got back from its
camel case, so no two such names have the same one.
-/
namespace DesignTokens.Text

/-! ### Small letters -/

/-- One of the letters from a to z. -/
def IsSmall (c : Char) : Prop := 'a' ≤ c ∧ c ≤ 'z'

instance (c : Char) : Decidable (IsSmall c) := inferInstanceAs (Decidable (_ ∧ _))

theorem isSmall_iff {c : Char} : IsSmall c ↔ 97 ≤ c.toNat ∧ c.toNat ≤ 122 := by
  simp [IsSmall, Char.le_def, UInt32.le_iff_toNat_le, ← Char.toNat_val]

/-- An underscore before a capital. -/
def marked (c : Char) : List Char := if 'A' ≤ c && c ≤ 'Z' then ['_', c] else [c]

/-- What a small letter is to the functions on cases, and its capital. -/
structure HasCapital (c : Char) : Prop where
  ascii : c.toNat < 128
  cased : isCased c
  lower : c.toLower = c
  unmarked : marked c = [c]
  upper_ascii : c.toUpper.toNat < 128
  lower_upper : c.toUpper.toLower = c
  upper_marked : marked c.toUpper = ['_', c.toUpper]

instance (c : Char) : Decidable (HasCapital c) :=
  decidable_of_iff (c.toNat < 128 ∧ isCased c ∧ c.toLower = c ∧ marked c = [c] ∧
      c.toUpper.toNat < 128 ∧ c.toUpper.toLower = c ∧ marked c.toUpper = ['_', c.toUpper])
    ⟨fun ⟨h₁, h₂, h₃, h₄, h₅, h₆, h₇⟩ => ⟨h₁, h₂, h₃, h₄, h₅, h₆, h₇⟩,
      fun ⟨h₁, h₂, h₃, h₄, h₅, h₆, h₇⟩ => ⟨h₁, h₂, h₃, h₄, h₅, h₆, h₇⟩⟩

theorem IsSmall.hasCapital {c : Char} (h : IsSmall c) : HasCapital c := by
  have hall : ∀ n ∈ List.range' 97 26, HasCapital (Char.ofNat n) := by
    decide
  have hrange := isSmall_iff.mp h
  exact forall_code hall (by rw [List.mem_range'_1]; omega)

/-! ### Small words -/

section

variable {cs before : List Char}

/-- The word with a capital in front. -/
def capitalized : List Char → List Char
  | [] => []
  | c :: cs => c.toUpper :: cs

theorem lowerFrom_ascii (h : ∀ c ∈ cs, c.toNat < 128) (before : List Char) :
    lowerFrom before cs = cs.map Char.toLower := by
  induction cs generalizing before with
  | nil => rfl
  | cons c cs ih =>
    obtain ⟨hc, hcs⟩ := List.forall_mem_cons.mp h
    rw [lowerFrom, lowerChar, if_pos hc, ih hcs]
    rfl

variable (hcs : ∀ c ∈ cs, IsSmall c)
include hcs

/-- Behind a cased letter small letters stay as they are. -/
theorem titleFrom_of_isCased (hbefore : before.head?.any isCased) : titleFrom before cs = cs := by
  induction cs generalizing before with
  | nil => rfl
  | cons c cs ih =>
    obtain ⟨hc, hcs⟩ := List.forall_mem_cons.mp hcs
    have hcapital := hc.hasCapital
    rw [titleFrom, if_pos hbefore, lowerChar, if_pos hcapital.ascii, hcapital.lower,
      ih hcs (by simpa using hcapital.cased)]
    rfl

theorem titleFrom_nil : titleFrom [] cs = capitalized cs := by
  cases cs with
  | nil => rfl
  | cons c cs =>
    obtain ⟨hc, hcs⟩ := List.forall_mem_cons.mp hcs
    have hcapital := hc.hasCapital
    rw [titleFrom, if_neg (by simp), titleChar, if_pos hcapital.ascii,
      titleFrom_of_isCased hcs (by simpa using hcapital.cased)]
    rfl

theorem flatMap_marked : cs.flatMap marked = cs := by
  induction cs with
  | nil => rfl
  | cons c cs ih =>
    obtain ⟨hc, hcs⟩ := List.forall_mem_cons.mp hcs
    rw [List.flatMap_cons, hc.hasCapital.unmarked, ih hcs]
    rfl

theorem flatMap_marked_capitalized (hne : cs ≠ []) :
    (capitalized cs).flatMap marked = '_' :: capitalized cs := by
  obtain ⟨c, cs, rfl⟩ := List.exists_cons_of_ne_nil hne
  obtain ⟨hc, hcs⟩ := List.forall_mem_cons.mp hcs
  rw [capitalized, List.flatMap_cons, hc.hasCapital.upper_marked, flatMap_marked hcs]
  rfl

theorem ascii_capitalized : ∀ c ∈ capitalized cs, c.toNat < 128 := by
  cases cs with
  | nil => exact List.forall_mem_nil _
  | cons c cs =>
    obtain ⟨hc, hcs⟩ := List.forall_mem_cons.mp hcs
    exact List.forall_mem_cons.mpr
      ⟨hc.hasCapital.upper_ascii, fun d hd => (hcs d hd).hasCapital.ascii⟩

theorem map_toLower : cs.map Char.toLower = cs :=
  (List.map_congr_left fun c hc => (hcs c hc).hasCapital.lower).trans (List.map_id' cs)

theorem map_toLower_capitalized : (capitalized cs).map Char.toLower = cs := by
  cases cs with
  | nil => rfl
  | cons c cs =>
    obtain ⟨hc, hcs⟩ := List.forall_mem_cons.mp hcs
    rw [capitalized, List.map_cons, hc.hasCapital.lower_upper, map_toLower hcs]

end

/-! ### Names -/

/-- Small letters, at least one. -/
structure IsSmallWord (w : String) : Prop where
  ne_empty : w ≠ ""
  small : ∀ c ∈ w.toList, IsSmall c

instance (w : String) : Decidable (IsSmallWord w) :=
  decidable_of_iff (w ≠ "" ∧ w.toList.all fun c => decide (IsSmall c))
    ⟨fun ⟨h₁, h₂⟩ => ⟨h₁, by simpa using h₂⟩, fun ⟨h₁, h₂⟩ => ⟨h₁, by simpa using h₂⟩⟩

theorem IsSmallWord.toList_ne_nil {w : String} (h : IsSmallWord w) : w.toList ≠ [] :=
  mt String.toList_eq_nil_iff.mp h.ne_empty

theorem IsSmallWord.underscore_not_mem {w : String} (h : IsSmallWord w) : '_' ∉ w.toList :=
  fun hmem => absurd (h.small '_' hmem) (by decide)

/-- Small words, joined by underscores. -/
def IsSnakeName (name : String) : Prop :=
  ∃ words, words ≠ [] ∧ (∀ w ∈ words, IsSmallWord w) ∧ name = String.intercalate "_" words

theorem isSnakeName_iff {name : String} :
    IsSnakeName name ↔ ∀ w ∈ splitOn name '_', IsSmallWord w := by
  constructor
  · rintro ⟨_ | ⟨w, ws⟩, hne, hwords, rfl⟩
    · exact absurd rfl hne
    · have hsplit := splitOn_intercalate w ws fun v hv => (hwords v hv).underscore_not_mem
      exact fun v hv => hwords v (hsplit ▸ hv)
  · exact fun h => ⟨splitOn name '_', splitOn_ne_nil name '_', h, (intercalate_splitOn name).symm⟩

instance (name : String) : Decidable (IsSnakeName name) := decidable_of_iff' _ isSnakeName_iff

theorem toList_intercalate_underscore (w : String) (ws : List String) :
    (String.intercalate "_" (w :: ws)).toList =
      w.toList ++ ws.flatMap fun v => '_' :: v.toList := by
  induction ws generalizing w with
  | nil => simp
  | cons v ws ih =>
    rw [String.intercalate_cons_cons, String.toList_append, ih v]
    simp

section

variable {w : String} {ws : List String} (h : ∀ v ∈ w :: ws, IsSmallWord v)
include h

theorem toList_camelCase : (camelCase (String.intercalate "_" (w :: ws))).toList =
    w.toList ++ ws.flatMap fun v => capitalized v.toList := by
  have hsplit : splitOn (String.intercalate "_" (w :: ws)) '_' = w :: ws :=
    splitOn_intercalate w ws fun v hv => (h v hv).underscore_not_mem
  have htitle : ∀ v ∈ ws, (title v).toList = capitalized v.toList := by
    intro v hv
    rw [title, String.toList_ofList, titleFrom_nil (h v (List.mem_cons_of_mem w hv)).small]
  rw [camelCase, hsplit]
  simp only [String.toList_append, String.toList_join, List.flatMap_map]
  rw [List.flatMap_congr htitle]

/-- The capitals of a camel case stand where the underscores were. -/
theorem markCapitals_camelCase :
    markCapitals (camelCase (String.intercalate "_" (w :: ws))).toList =
      w.toList ++ ws.flatMap fun v => '_' :: capitalized v.toList := by
  have hw := h w List.mem_cons_self
  have hmarked : ∀ v ∈ ws, (capitalized v.toList).flatMap marked = '_' :: capitalized v.toList :=
    fun v hv => flatMap_marked_capitalized (h v (List.mem_cons_of_mem w hv)).small
      (h v (List.mem_cons_of_mem w hv)).toList_ne_nil
  obtain ⟨c, cs, hcs⟩ := List.exists_cons_of_ne_nil hw.toList_ne_nil
  have hsmall : ∀ d ∈ cs, IsSmall d := fun d hd => hw.small d (hcs ▸ List.mem_cons_of_mem c hd)
  rw [toList_camelCase h, hcs]
  -- the first character is never marked
  change c :: (cs ++ ws.flatMap fun v => capitalized v.toList).flatMap marked = _
  rw [List.flatMap_append, flatMap_marked hsmall, List.flatMap_assoc, List.flatMap_congr hmarked]
  rfl

end

/-- A name is got back from its camel case. -/
theorem snakeCase_camelCase {name : String} (h : IsSnakeName name) :
    snakeCase (camelCase name) = name := by
  obtain ⟨_ | ⟨w, ws⟩, hne, hwords, rfl⟩ := h
  · exact absurd rfl hne
  obtain ⟨hw, hws⟩ := List.forall_mem_cons.mp hwords
  have hascii : ∀ c ∈ w.toList ++ ws.flatMap fun v => '_' :: capitalized v.toList,
      c.toNat < 128 := by
    intro c hc
    rcases List.mem_append.mp hc with hc | hc
    · exact (hw.small c hc).hasCapital.ascii
    · obtain ⟨v, hv, hc⟩ := List.mem_flatMap.mp hc
      rcases List.mem_cons.mp hc with rfl | hc
      · decide
      · exact ascii_capitalized (hws v hv).small c hc
  have hlower : ∀ v ∈ ws, ('_' :: capitalized v.toList).map Char.toLower = '_' :: v.toList := by
    intro v hv
    rw [List.map_cons, map_toLower_capitalized (hws v hv).small]
    rfl
  rw [← String.toList_inj, snakeCase, lower, String.toList_ofList, String.toList_ofList,
    markCapitals_camelCase hwords, lowerFrom_ascii hascii, List.map_append, map_toLower hw.small,
    List.map_flatMap, List.flatMap_congr hlower, toList_intercalate_underscore]

theorem leftInvOn_camelCase : Set.LeftInvOn snakeCase camelCase {name | IsSnakeName name} :=
  fun _ h => snakeCase_camelCase h

end DesignTokens.Text
