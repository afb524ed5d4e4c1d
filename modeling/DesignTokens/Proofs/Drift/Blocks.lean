import DesignTokens.Drift.Embedded
import Mathlib.Tactic.SplitIfs

/-!
Blocks of source text: braces around characters, strings and other blocks, where braces in strings
do not count. A block is read up to the brace that closes it, wherever it stands. What is read does
not depend on what follows it, so nothing is read of a text that ends inside the block.
-/
namespace DesignTokens.Drift

/-! ### The grammar -/

/-- A character that neither opens nor closes anything, and marks nothing. -/
structure Plain (c : Char) : Prop where
  quote : isStringQuote c = false
  opening : c ≠ '\x7b'
  closing : c ≠ '\x7d'
  backslash : c ≠ '\\'

instance (c : Char) : Decidable (Plain c) :=
  decidable_of_iff (isStringQuote c = false ∧ c ≠ '\x7b' ∧ c ≠ '\x7d' ∧ c ≠ '\\')
    ⟨fun ⟨h₁, h₂, h₃, h₄⟩ => ⟨h₁, h₂, h₃, h₄⟩, fun ⟨h₁, h₂, h₃, h₄⟩ => ⟨h₁, h₂, h₃, h₄⟩⟩

/-- What stands between two braces. -/
inductive Items : List Char → Prop where
  | nil : Items []
  | plain {c : Char} {cs : List Char} (hc : Plain c) (hcs : Items cs) : Items (c :: cs)
  /-- A string, which ends at the next quote of its own kind. -/
  | quoted {q : Char} {content cs : List Char} (hq : isStringQuote q)
      (hcontent : ∀ c ∈ content, c ≠ q ∧ c ≠ '\\') (hcs : Items cs) :
      Items (q :: (content ++ q :: cs))
  | nested {inner cs : List Char} (hinner : Items inner) (hcs : Items cs) :
      Items ('\x7b' :: (inner ++ '\x7d' :: cs))

/-- Items in braces. -/
def IsBlock (b : List Char) : Prop := ∃ items, Items items ∧ b = '\x7b' :: (items ++ ['\x7d'])

variable {depth : Nat} {quote : Option Char} {escaped : Bool} {cs found rest : List Char}

theorem Items.plain_append (hcs : ∀ c ∈ cs, Plain c) (hrest : Items rest) : Items (cs ++ rest) := by
  induction cs with
  | nil => exact hrest
  | cons c cs ih =>
    obtain ⟨hc, hcs⟩ := List.forall_mem_cons.mp hcs
    exact .plain hc (ih hcs)

/-! ### One character -/

/-- The scan stops at a character or goes on after it, and what follows has no say in that. -/
theorem closing_cons (depth : Nat) (quote : Option Char) (escaped : Bool) (c : Char) :
    (∀ cs, closing depth quote escaped (c :: cs) = some [c]) ∨
      ∃ depth' quote', ∀ cs, closing depth quote escaped (c :: cs) =
        (closing depth' quote' (c == '\\') cs).map (c :: ·) := by
  simp only [closing]
  split_ifs
  · exact .inr ⟨depth, toggleQuote c quote, fun _ => rfl⟩
  · exact .inr ⟨depth, quote, fun _ => rfl⟩
  · exact .inr ⟨depth + 1, none, fun _ => rfl⟩
  · exact .inl fun _ => rfl
  · exact .inr ⟨depth - 1, none, fun _ => rfl⟩
  · exact .inr ⟨depth, none, fun _ => rfl⟩

theorem closing_plain {c : Char} (hc : Plain c) : closing depth none false (c :: cs) =
    (closing depth none false cs).map (c :: ·) := by
  simp [closing, hc.quote, hc.opening, hc.closing, beq_false_of_ne hc.backslash]

/-- An opening brace, and one that closes a block in another one. -/
theorem closing_opening : closing depth none false ('\x7b' :: cs) =
    (closing (depth + 1) none false cs).map ('\x7b' :: ·) := rfl

theorem closing_inner : closing (depth + 2) none false ('\x7d' :: cs) =
    (closing (depth + 1) none false cs).map ('\x7d' :: ·) := rfl

theorem closing_last : closing 1 none false ('\x7d' :: cs) = some ['\x7d'] := rfl

/-! ### A run of characters -/

theorem beq_backslash_of_isStringQuote {q : Char} (hq : isStringQuote q) :
    (q == '\\') = false := by
  refine beq_false_of_ne ?_
  rintro rfl
  cases hq

/-- The content of a string is passed over, the quote that ends it included. -/
theorem closing_content {q : Char} {content : List Char} (hq : isStringQuote q)
    (hcontent : ∀ c ∈ content, c ≠ q ∧ c ≠ '\\') :
    closing depth (some q) false (content ++ q :: rest) =
      (closing depth none false rest).map (content ++ q :: ·) := by
  induction content with
  | nil => simp [closing, hq, toggleQuote, beq_backslash_of_isStringQuote hq]
  | cons c content ih =>
    obtain ⟨⟨hkind, hbackslash⟩, hcontent⟩ := List.forall_mem_cons.mp hcontent
    have htoggle : toggleQuote c (some q) = some q := by simp [toggleQuote, Ne.symm hkind]
    have hstep : closing depth (some q) false (c :: (content ++ q :: rest)) =
        (closing depth (some q) false (content ++ q :: rest)).map (c :: ·) := by
      simp [closing, htoggle, beq_false_of_ne hbackslash]
    rw [List.cons_append, hstep, ih hcontent, Option.map_map]
    rfl

/-- Items are passed over as a whole, and leave the depth as it was. -/
theorem closing_items {items : List Char} (h : Items items) (depth : Nat) (rest : List Char) :
    closing (depth + 1) none false (items ++ rest) =
      (closing (depth + 1) none false rest).map (items ++ ·) := by
  -- the depth is at least one, so that the brace of an inner block never ends the scan
  induction h generalizing depth rest with
  | nil => simp
  | plain hc _ ih =>
    rw [List.cons_append, closing_plain hc, ih, Option.map_map]
    rfl
  | @quoted q content cs hq hcontent _ ih =>
    have hopen : closing (depth + 1) none false (q :: (content ++ q :: (cs ++ rest))) =
        (closing (depth + 1) (some q) false (content ++ q :: (cs ++ rest))).map (q :: ·) := by
      simp [closing, hq, toggleQuote, beq_backslash_of_isStringQuote hq]
    rw [List.cons_append, List.append_assoc, List.cons_append, hopen, closing_content hq hcontent,
      ih, Option.map_map, Option.map_map]
    simp [Function.comp_def]
  | @nested inner cs _ _ ihinner ih =>
    rw [List.cons_append, List.append_assoc, List.cons_append, closing_opening, ihinner,
      closing_inner, ih, Option.map_map, Option.map_map, Option.map_map]
    simp [Function.comp_def]

/-- What is found begins the text, and is found whatever follows it. -/
theorem closing_eq_some (h : closing depth quote escaped cs = some found) :
    found <+: cs ∧ ∀ more, closing depth quote escaped (found ++ more) = some found := by
  induction cs generalizing depth quote escaped found with
  | nil => cases h
  | cons c cs ih =>
    rcases closing_cons depth quote escaped c with hstop | ⟨depth', quote', hstep⟩
    · obtain rfl : [c] = found := Option.some.inj ((hstop cs).symm.trans h)
      exact ⟨List.prefix_append [c] cs, hstop⟩
    · rw [hstep] at h
      obtain ⟨found, hfound, rfl⟩ := Option.map_eq_some_iff.mp h
      obtain ⟨hstart, hmore⟩ := ih hfound
      refine ⟨(List.prefix_cons_inj c).mpr hstart, fun more => ?_⟩
      rw [List.cons_append, hstep, hmore, Option.map_some]

/-! ### Blocks -/

theorem block?_items {items : List Char} (h : Items items) (after : List Char) :
    block? ('\x7b' :: (items ++ '\x7d' :: after)) = some ('\x7b' :: (items ++ ['\x7d'])) := by
  rw [block?, closing_items h, closing_last]
  rfl

theorem IsBlock.block?_append {b : List Char} (hb : IsBlock b) (after : List Char) :
    block? (b ++ after) = some b := by
  obtain ⟨items, hitems, rfl⟩ := hb
  simpa using block?_items hitems after

theorem block?_eq_some (h : block? cs = some found) :
    found <+: cs ∧ ∀ more, block? (found ++ more) = some found := by
  cases cs with
  | nil => cases h
  | cons c cs =>
    by_cases hc : c = '\x7b'
    · subst hc
      obtain ⟨found, hfound, rfl⟩ := Option.map_eq_some_iff.mp h
      obtain ⟨hstart, hmore⟩ := closing_eq_some hfound
      refine ⟨(List.prefix_cons_inj _).mpr hstart, fun more => ?_⟩
      rw [List.cons_append, block?, hmore, Option.map_some]
    · simp [block?, hc] at h

/-- A text that ends inside a block has no block at its start. -/
theorem IsBlock.block?_prefix {b p : List Char} (hb : IsBlock b) (hp : p <+: b) (hne : p ≠ b) :
    block? p = none := by
  rw [Option.eq_none_iff_forall_ne_some]
  intro found hfound
  obtain ⟨hstart, hmore⟩ := block?_eq_some hfound
  obtain ⟨more, rfl⟩ := hstart.trans hp
  -- what is found in the start is found in the block, too, and so is the whole of it
  have hwhole := hb.block?_append []
  rw [List.append_nil, hmore] at hwhole
  obtain rfl : more = [] := by simpa using Option.some.inj hwhole
  rw [List.append_nil] at hp hne
  exact hne (hp.eq_of_length_le hstart.length_le)

/-- A block is read as it is, whatever stands before and after it; of a text that ends inside it
nothing is read. -/
theorem block?_isBlock {b : String} (hb : IsBlock b.toList) (u t : String) :
    block? ((u ++ b ++ t).toList.drop u.length) = some b.toList ∧
      ∀ p : String, p.toList <+: b.toList → p ≠ b →
        block? ((u ++ p).toList.drop u.length) = none := by
  have hdrop : ∀ s : String, (u ++ s).toList.drop u.length = s.toList := by
    intro s
    rw [String.toList_append, ← String.length_toList, List.drop_left]
  refine ⟨?_, fun p hp hne => ?_⟩
  · rw [String.append_assoc, hdrop, String.toList_append]
    exact hb.block?_append t.toList
  · rw [hdrop]
    exact hb.block?_prefix hp fun heq => hne (String.toList_inj.mp heq)

/-- A string with a brace in it, and in the inner block one with a quote of another kind. -/
def quotedBraces : String := "\x7b\"\x7d\": \x7ba: '\x60'\x7d\x7d"

theorem block?_isBlock_quotedBraces : IsBlock quotedBraces.toList ∧
    block? (("m = " ++ quotedBraces ++ " \x7d").toList.drop "m = ".length) =
      some quotedBraces.toList ∧
    block? (("m = " ++ "\x7b\"\x7d\": \x7ba: '\x60'\x7d").toList.drop "m = ".length) = none := by
  have hinner : Items ['a', ':', ' ', '\x27', '\x60', '\x27'] :=
    .plain (by decide) (.plain (by decide) (.plain (by decide)
      (@Items.quoted '\x27' ['\x60'] [] (by decide) (by simp) .nil)))
  have hblock : IsBlock quotedBraces.toList :=
    ⟨_, @Items.quoted '"' ['\x7d'] _ (by decide) (by simp)
      (.plain (by decide) (.plain (by decide) (.nested hinner .nil))), rfl⟩
  obtain ⟨hread, hopen⟩ := block?_isBlock hblock "m = " " \x7d"
  exact ⟨hblock, hread, hopen _ (by decide) (by decide)⟩

end DesignTokens.Drift
