import DesignTokens.Text.Words

/-!
Runs of characters, words and the texts they make. A run goes up to the first character that does
not pass its test. A word is a text without white space that is not empty; splitting gives words,
and words joined by spaces are split into themselves again. So are texts that are joined by a
separator which is in none of them. What follows a lead is read back from the two of them.
-/
namespace DesignTokens.Text

/-! ### Runs of characters -/

section

variable {test : Char → Bool} {cs rest : List Char}

theorem takeWhile_append_stop (hcs : ∀ c ∈ cs, test c) (hrest : ∀ c ∈ rest.head?, test c = false) :
    (cs ++ rest).takeWhile test = cs := by
  have hnone : rest.takeWhile test = [] := by
    cases rest with
    | nil => rfl
    | cons c rest => rw [List.takeWhile_cons, hrest c rfl]; rfl
  rw [List.takeWhile_append_of_pos hcs, hnone, List.append_nil]

theorem dropWhile_append_stop (hcs : ∀ c ∈ cs, test c) (hrest : ∀ c ∈ rest.head?, test c = false) :
    (cs ++ rest).dropWhile test = rest := by
  have hnone : rest.dropWhile test = rest := by
    cases rest with
    | nil => rfl
    | cons c rest => rw [List.dropWhile_cons, hrest c rfl]; rfl
  rw [List.dropWhile_append_of_pos hcs, hnone]

/-- Nothing is passed over beyond a character that does not pass. -/
theorem takeWhile_append_cons {c : Char} (hc : test c = false) (cs rest : List Char) :
    (cs ++ c :: rest).takeWhile test = cs.takeWhile test := by
  induction cs with
  | nil => simp [hc]
  | cons d cs ih => rw [List.cons_append, List.takeWhile_cons, List.takeWhile_cons, ih]

theorem dropWhile_append_cons {c : Char} (hc : test c = false) (cs rest : List Char) :
    (cs ++ c :: rest).dropWhile test = cs.dropWhile test ++ c :: rest := by
  induction cs with
  | nil => simp [hc]
  | cons d cs ih =>
    rw [List.cons_append, List.dropWhile_cons, List.dropWhile_cons]
    split
    · exact ih
    · rfl

/-- The first character of two stretches is that of the first one, or else of the second one. -/
theorem forall_head?_append {P : Char → Prop} (hcs : ∀ c ∈ cs.head?, P c)
    (hrest : ∀ c ∈ rest.head?, P c) : ∀ c ∈ (cs ++ rest).head?, P c := by
  cases cs with
  | nil => exact hrest
  | cons c cs => exact hcs

theorem forall_head?_cons {P : Char → Prop} {c : Char} (hc : P c) :
    ∀ d ∈ (c :: cs).head?, P d := by
  simpa using hc

theorem forall_getLast?_append {P : Char → Prop} (hcs : ∀ c ∈ cs.getLast?, P c)
    (hrest : ∀ c ∈ rest.getLast?, P c) : ∀ c ∈ (cs ++ rest).getLast?, P c := by
  rw [List.getLast?_append]
  cases hlast : rest.getLast? with
  | none => exact hcs
  | some c => exact fun d hd => hrest d (hlast ▸ hd)

theorem forall_getLast?_cons {P : Char → Prop} {c : Char} (hc : P c)
    (hcs : ∀ d ∈ cs.getLast?, P d) : ∀ d ∈ (c :: cs).getLast?, P d := by
  rw [List.getLast?_cons]
  cases hlast : cs.getLast? with
  | none => simpa using hc
  | some d => simpa using hcs d hlast

end

/-! ### Characters by their code points -/

/-- What holds of all characters with some code points, one by one. -/
theorem forall_code {codes : List Nat} {P : Char → Prop} (h : ∀ n ∈ codes, P (Char.ofNat n))
    {c : Char} (hc : c.toNat ∈ codes) : P c := by
  have hP := h _ hc
  rwa [Char.ofNat_toNat] at hP

/-- The blanks by their code points. -/
def blankCodes : List Nat :=
  [9, 10, 11, 12, 13, 28, 29, 30, 31, 32, 0x85, 0xA0, 0x1680, 0x2000, 0x2001, 0x2002, 0x2003,
    0x2004, 0x2005, 0x2006, 0x2007, 0x2008, 0x2009, 0x200A, 0x2028, 0x2029, 0x202F, 0x205F, 0x3000]

theorem mem_blankCodes {c : Char} (h : isBlank c) : c.toNat ∈ blankCodes := by
  simp only [isBlank, Bool.or_eq_true, Bool.and_eq_true, decide_eq_true_eq, beq_iff_eq] at h
  simp only [blankCodes, List.mem_cons, List.not_mem_nil]
  omega

theorem forall_isBlank {P : Char → Prop} (h : ∀ n ∈ blankCodes, P (Char.ofNat n)) {c : Char}
    (hc : isBlank c) : P c :=
  forall_code h (mem_blankCodes hc)

theorem isWord_of_isBlank {c : Char} (h : isBlank c) : isWord c = false :=
  forall_isBlank (P := fun c => isWord c = false) (by decide +kernel) h

/-! ### Words -/

/-- Not empty, and free of white space. -/
structure IsWord (w : String) : Prop where
  ne_empty : w ≠ ""
  solid : ∀ c ∈ w.toList, isBlank c = false

/-- White space separates: what stands before it and what follows are split on their own. -/
theorem wordsFrom_append_blank {c : Char} (hc : isBlank c) (run cs ds : List Char) :
    wordsFrom run (cs ++ c :: ds) = wordsFrom run cs ++ wordsFrom [] ds := by
  induction cs generalizing run with
  | nil =>
    simp only [List.nil_append, wordsFrom, hc, if_true]
    split <;> rfl
  | cons d cs ih =>
    simp only [List.cons_append, wordsFrom]
    split
    · split
      · exact ih []
      · rw [ih [], List.cons_append]
    · exact ih (d :: run)

/-- Characters that are no white space end up in the unfinished word. -/
theorem wordsFrom_solid {cs : List Char} (h : ∀ c ∈ cs, isBlank c = false) (run : List Char) :
    wordsFrom run cs = wordsFrom (cs.reverse ++ run) [] := by
  induction cs generalizing run with
  | nil => rfl
  | cons c cs ih =>
    have hc : isBlank c = false := h c (by simp)
    have hstep : wordsFrom run (c :: cs) = wordsFrom (c :: run) cs := by simp [wordsFrom, hc]
    rw [hstep, ih (fun d hd => h d (by simp [hd]))]
    simp

theorem solid_of_mem_wordsFrom {cs run w : List Char} (hrun : ∀ c ∈ run, isBlank c = false)
    (hw : w ∈ wordsFrom run cs) : w ≠ [] ∧ ∀ c ∈ w, isBlank c = false := by
  induction cs generalizing run with
  | nil =>
    simp only [wordsFrom] at hw
    split at hw
    · simp at hw
    · obtain rfl : w = run.reverse := by simpa using hw
      exact ⟨by simp_all, by simpa using hrun⟩
  | cons c cs ih =>
    simp only [wordsFrom] at hw
    split at hw
    · split at hw
      · exact ih (by simp) hw
      · rcases List.mem_cons.mp hw with rfl | hw
        · exact ⟨by simp_all, by simpa using hrun⟩
        · exact ih (by simp) hw
    · refine ih ?_ hw
      intro d hd
      rcases List.mem_cons.mp hd with rfl | hd
      · simp_all
      · exact hrun d hd

theorem isWord_of_mem_words {w s : String} (h : w ∈ words s) : IsWord w := by
  simp only [words, List.mem_map] at h
  obtain ⟨cs, hcs, rfl⟩ := h
  have hw := solid_of_mem_wordsFrom (by simp) hcs
  exact ⟨by simpa using hw.1, by simpa using hw.2⟩

@[simp] theorem words_empty : words "" = [] := rfl

theorem words_of_isWord {w : String} (h : IsWord w) : words w = [w] := by
  have hne : w.toList ≠ [] := by simpa using h.ne_empty
  rw [words, wordsFrom_solid h.solid]
  simp [wordsFrom, hne]

theorem words_append_space (s t : String) : words (s ++ " " ++ t) = words s ++ words t := by
  have hs : (s ++ " " ++ t).toList = s.toList ++ ' ' :: t.toList := by simp
  rw [words, hs, wordsFrom_append_blank (by decide), List.map_append]
  rfl

/-- Texts joined by spaces are split one after the other. -/
theorem words_intercalate (ts : List String) :
    words (String.intercalate " " ts) = ts.flatMap words := by
  induction ts with
  | nil => rfl
  | cons t ts ih =>
    cases ts with
    | nil => simp
    | cons u us =>
      rw [String.intercalate_cons_cons, words_append_space, ih]
      rfl

/-- Joining words by spaces is undone by splitting. -/
theorem words_join {ws : List String} (h : ∀ w ∈ ws, IsWord w) :
    words (String.intercalate " " ws) = ws := by
  rw [words_intercalate]
  induction ws with
  | nil => rfl
  | cons w ws ih =>
    rw [List.flatMap_cons, words_of_isWord (h w (by simp)), ih (fun v hv => h v (by simp [hv]))]
    rfl

/-! ### Texts between separators -/

variable {sep : Char}

/-- Splitting a text is splitting the list of its characters. -/
theorem splitAtChar_eq (sep : Char) (cs : List Char) : splitAtChar sep cs = cs.splitOn sep := by
  induction cs with
  | nil => exact (List.splitOn_nil sep).symm
  | cons c cs ih =>
    rw [splitAtChar, ih, List.splitOn_cons_eq_if_modifyHead]
    split
    · rfl
    · cases hsplit : cs.splitOn sep with
      | nil => exact absurd hsplit (List.splitOn_ne_nil sep cs)
      | cons part parts => rfl

theorem splitAtChar_cons_self (cs : List Char) :
    splitAtChar sep (sep :: cs) = [] :: splitAtChar sep cs := by
  simp [splitAtChar]

/-- A separator separates: what stands before it and what follows are split on their own. -/
theorem splitAtChar_append (cs ds : List Char) :
    splitAtChar sep (cs ++ sep :: ds) = splitAtChar sep cs ++ splitAtChar sep ds := by
  rw [splitAtChar_eq, splitAtChar_eq, splitAtChar_eq, List.splitOn_append_cons_self]

theorem not_mem_of_mem_splitAtChar {cs part : List Char} (h : part ∈ splitAtChar sep cs) :
    sep ∉ part := by
  induction cs generalizing part with
  | nil => simp_all [splitAtChar]
  | cons c cs ih =>
    rw [splitAtChar] at h
    split at h
    · rcases List.mem_cons.mp h with rfl | h
      · exact List.not_mem_nil
      · exact ih h
    · rename_i hc
      have hne : sep ≠ c := fun heq => hc (beq_iff_eq.mpr heq.symm)
      split at h
      · rename_i hnil
        exact absurd hnil (splitAtChar_ne_nil sep cs)
      · rename_i first rest hsplit
        rcases List.mem_cons.mp h with rfl | h
        · exact mt List.mem_cons.mp (not_or.mpr ⟨hne, ih (hsplit ▸ List.mem_cons_self)⟩)
        · exact ih (hsplit ▸ List.mem_cons_of_mem _ h)

theorem not_mem_of_mem_splitOn {s part : String} (h : part ∈ splitOn s sep) :
    sep ∉ part.toList := by
  obtain ⟨cs, hcs, rfl⟩ := List.mem_map.mp h
  rw [String.toList_ofList]
  exact not_mem_of_mem_splitAtChar hcs

theorem splitOn_ne_nil (s : String) (sep : Char) : splitOn s sep ≠ [] := by
  rw [splitOn, Ne, List.map_eq_nil_iff]
  exact splitAtChar_ne_nil sep _

theorem splitOn_of_not_mem {s : String} (h : sep ∉ s.toList) : splitOn s sep = [s] := by
  rw [splitOn, splitAtChar_eq, List.splitOn_eq_singleton h, List.map_singleton, String.ofList_toList]

/-- A text that has a separator in it is split at least in two. -/
theorem exists_splitOn_of_mem {s : String} (h : sep ∈ s.toList) :
    ∃ first second more, splitOn s sep = first :: second :: more := by
  obtain ⟨before, after, hs⟩ := List.append_of_mem h
  have hjoin : splitOn s sep =
      splitOn (String.ofList before) sep ++ splitOn (String.ofList after) sep := by
    rw [splitOn, hs, splitAtChar_append, List.map_append]
    simp [splitOn]
  obtain ⟨first, rest, hfirst⟩ := List.exists_cons_of_ne_nil (splitOn_ne_nil (String.ofList before) sep)
  obtain ⟨next, more, hnext⟩ := List.exists_cons_of_ne_nil (splitOn_ne_nil (String.ofList after) sep)
  rw [hjoin, hfirst, hnext]
  cases rest with
  | nil => exact ⟨first, next, more, rfl⟩
  | cons second rest => exact ⟨first, second, rest ++ next :: more, rfl⟩

/-- What is split is joined again. -/
theorem intercalate_splitOn (s : String) :
    String.intercalate (String.singleton sep) (splitOn s sep) = s := by
  rw [← String.toList_inj, String.toList_intercalate, String.toList_singleton, splitOn,
    splitAtChar_eq, List.map_map]
  simp

/-- Texts joined by a separator are split one after the other. -/
theorem splitOn_intercalate_eq_flatMap (part : String) (parts : List String) :
    splitOn (String.intercalate (String.singleton sep) (part :: parts)) sep =
      (part :: parts).flatMap (splitOn · sep) := by
  induction parts generalizing part with
  | nil => simp
  | cons next parts ih =>
    rw [splitOn, String.intercalate_cons_cons, String.toList_append, String.toList_append,
      String.toList_singleton, List.append_assoc, List.singleton_append, splitAtChar_append,
      List.map_append, List.flatMap_cons, ← ih next]
    rfl

theorem flatMap_splitOn {parts : List String} (h : ∀ p ∈ parts, sep ∉ p.toList) :
    parts.flatMap (splitOn · sep) = parts := by
  induction parts with
  | nil => rfl
  | cons part parts ih =>
    obtain ⟨hpart, hparts⟩ := List.forall_mem_cons.mp h
    rw [List.flatMap_cons, splitOn_of_not_mem hpart, ih hparts, List.singleton_append]

/-- What is joined is split again. -/
theorem splitOn_intercalate (part : String) (parts : List String)
    (h : ∀ p ∈ part :: parts, sep ∉ p.toList) :
    splitOn (String.intercalate (String.singleton sep) (part :: parts)) sep = part :: parts := by
  rw [splitOn_intercalate_eq_flatMap, flatMap_splitOn h]

/-! ### Leads -/

/-- What follows a lead is what the lead is put before. -/
theorem after?_eq_some_iff {lead s rest : String} : after? lead s = some rest ↔ s = lead ++ rest := by
  rw [after?]
  constructor
  · intro h
    split at h
    · rename_i hstarts
      obtain ⟨cs, hcs⟩ := List.isPrefixOf_iff_prefix.mp hstarts
      obtain rfl := Option.some.inj h
      rw [← hcs, List.drop_left, ← String.toList_inj, String.toList_append, String.toList_ofList, hcs]
    · cases h
  · rintro rfl
    have hstarts : startsWith (lead ++ rest) lead := by
      rw [startsWith, String.toList_append]
      exact List.isPrefixOf_iff_prefix.mpr (List.prefix_append _ _)
    rw [if_pos hstarts, String.toList_append, List.drop_left, String.ofList_toList]

end DesignTokens.Text
