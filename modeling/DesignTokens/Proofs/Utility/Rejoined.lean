import DesignTokens.Proofs.Utility.Tokens

/-!
Texts put together again from what they are taken apart into. A text is split at the separators that
stand where no bracket is open, and its parts make up the text; a word is made up of its variants, the
mark of importance, the sign, the utility, the bracketed value and the modifier. Nothing is lost.
-/
namespace DesignTokens.Utility

/-! ### Parts of a text -/

theorem joinParts_cons {sep : Char} (p : List Char) {ps : List (List Char)} (h : ps ≠ []) :
    joinParts sep (p :: ps) = p ++ sep :: joinParts sep ps := by
  cases ps with
  | nil => exact absurd rfl h
  | cons q qs => rfl

theorem joinParts_concat {sep : Char} {ps : List (List Char)} (h : ps ≠ []) (q : List Char) :
    joinParts sep (ps ++ [q]) = joinParts sep ps ++ sep :: q := by
  induction ps with
  | nil => exact absurd rfl h
  | cons p ps ih =>
    cases ps with
    | nil => rfl
    | cons p' ps =>
      rw [List.cons_append, joinParts_cons _ (by simp), ih (List.cons_ne_nil _ _),
        joinParts_cons _ (List.cons_ne_nil _ _), List.append_assoc, List.cons_append]

theorem joinParts_splitFrom (sep : Char) (depth : Nat) (part cs : List Char) :
    joinParts sep (splitFrom sep depth part cs) = part.reverse ++ cs := by
  induction cs generalizing depth part with
  | nil => simp [splitFrom, joinParts]
  | cons c cs ih =>
    simp only [splitFrom]
    split
    · rename_i hc
      obtain rfl : c = sep := by simpa using (Bool.and_eq_true_iff.mp hc).1
      rw [joinParts_cons _ (splitFrom_ne_nil _ _ _ _), ih]
      rfl
    · rw [ih]
      simp

/-- The parts of a text make up the text. -/
theorem joinParts_splitOutside (sep : Char) (cs : List Char) :
    joinParts sep (splitOutside sep cs) = cs :=
  joinParts_splitFrom sep 0 [] cs

/-- The parts are joined with the separator between any two of them. -/
theorem joinParts_eq (sep : Char) (parts : List (List Char)) :
    joinParts sep parts = [sep].intercalate parts := by
  induction parts with
  | nil => rfl
  | cons p ps ih =>
    cases ps with
    | nil => rw [joinParts, List.intercalate_singleton]
    | cons q ps =>
      rw [joinParts_cons p (List.cons_ne_nil q ps), ih, List.intercalate_cons_cons,
        List.append_assoc, List.singleton_append]

/-! ### Separators and brackets -/

variable {sep : Char}

/-- How many brackets are open at the end of a text; a stray closing one does not count. -/
def openBrackets (cs : List Char) : Nat := cs.foldl bracketDepth 0

@[simp] theorem openBrackets_concat (cs : List Char) (c : Char) :
    openBrackets (cs ++ [c]) = bracketDepth (openBrackets cs) c := by
  rw [openBrackets, List.foldl_append]
  rfl

/-- What a text is split into: parts that make up the text, where each separator between two of them
stands outside brackets, and each separator within one of them inside. -/
structure SplitsOutside (sep : Char) (cs : List Char) (parts : List (List Char)) : Prop where
  joined : [sep].intercalate parts = cs
  outside : ∀ before after, before ≠ [] → after ≠ [] → parts = before ++ after →
    openBrackets ([sep].intercalate before) = 0
  inside : ∀ before left right after, parts = before ++ (left ++ sep :: right) :: after →
    openBrackets ([sep].intercalate (before ++ [left])) ≠ 0

/-- Where a scan stands: `text` is what was scanned before the current part. The depth is that of
the whole text so far, and the separators in the current part stand in brackets. -/
structure Scanned (sep : Char) (text part : List Char) (depth : Nat) : Prop where
  depth_eq : openBrackets (text ++ part.reverse) = depth
  inside : ∀ left right, part.reverse = left ++ sep :: right → openBrackets (text ++ left) ≠ 0

namespace Scanned

variable {text part : List Char} {depth : Nat}

theorem start (sep : Char) : Scanned sep [] [] 0 where
  depth_eq := rfl
  inside := by simp

/-- A character that does not split belongs to the current part. -/
theorem next (h : Scanned sep text part depth) (hsep : bracketDepth depth sep = depth) {c : Char}
    (hc : ¬(c = sep ∧ bracketDepth depth c = 0)) :
    Scanned sep text (c :: part) (bracketDepth depth c) where
  depth_eq := by
    rw [List.reverse_cons, ← List.append_assoc, openBrackets_concat, h.depth_eq]
  inside := by
    intro left right heq
    rw [List.reverse_cons] at heq
    rcases List.eq_nil_or_concat right with rfl | ⟨right, d, rfl⟩
    · obtain ⟨rfl, hcs⟩ := List.append_inj' heq rfl
      obtain rfl : c = sep := by simpa using hcs
      rw [h.depth_eq]
      exact fun hzero => hc ⟨rfl, hsep.trans hzero⟩
    · rw [List.concat_eq_append, ← List.cons_append, ← List.append_assoc] at heq
      exact h.inside left right (List.append_inj' heq rfl).1

/-- After a separator that splits a new part begins. -/
theorem split (h : Scanned sep text part depth) (hzero : bracketDepth depth sep = 0) :
    Scanned sep (text ++ part.reverse ++ [sep]) [] 0 where
  depth_eq := by
    rw [List.reverse_nil, List.append_nil, openBrackets_concat, h.depth_eq, hzero]
  inside := by simp

variable (hsep : ∀ depth, bracketDepth depth sep = depth) {cs : List Char}
include hsep

theorem outside_splitFrom (h : Scanned sep text part depth) {before after : List (List Char)}
    (hbefore : before ≠ []) (hafter : after ≠ [])
    (hparts : splitFrom sep depth part cs = before ++ after) :
    openBrackets (text ++ [sep].intercalate before) = 0 := by
  induction cs generalizing text part depth before with
  | nil =>
    have hlength := congrArg List.length hparts
    have := List.length_pos_iff.mpr hbefore
    have := List.length_pos_iff.mpr hafter
    simp only [splitFrom, List.length_singleton, List.length_append] at hlength
    omega
  | cons c cs ih =>
    simp only [splitFrom, Bool.and_eq_true, beq_iff_eq] at hparts
    split at hparts
    · rename_i hc
      obtain ⟨rfl, hzero⟩ := hc
      obtain ⟨p, before, rfl⟩ := List.exists_cons_of_ne_nil hbefore
      obtain ⟨rfl, hrest⟩ := List.cons.inj hparts
      cases before with
      | nil => rw [List.intercalate_singleton, h.depth_eq, ← hsep depth, hzero]
      | cons q before =>
        rw [hzero] at hrest
        have hnext := ih (h.split hzero) (List.cons_ne_nil q before) hrest
        rw [List.intercalate_cons_cons]
        simpa only [List.append_assoc] using hnext
    · rename_i hc
      exact ih (h.next (hsep depth) hc) hbefore hparts

theorem inside_splitFrom (h : Scanned sep text part depth) {before after : List (List Char)}
    {left right : List Char}
    (hparts : splitFrom sep depth part cs = before ++ (left ++ sep :: right) :: after) :
    openBrackets (text ++ [sep].intercalate (before ++ [left])) ≠ 0 := by
  induction cs generalizing text part depth before with
  | nil =>
    obtain ⟨rfl, hlast⟩ | ⟨before', -, hnil⟩ := List.append_eq_cons_iff.mp hparts.symm
    · rw [List.nil_append, List.intercalate_singleton]
      exact h.inside left right (List.cons.inj hlast).1.symm
    · simp at hnil
  | cons c cs ih =>
    simp only [splitFrom, Bool.and_eq_true, beq_iff_eq] at hparts
    split at hparts
    · rename_i hc
      obtain ⟨rfl, hzero⟩ := hc
      cases before with
      | nil =>
        rw [List.nil_append, List.intercalate_singleton]
        exact h.inside left right (List.cons.inj hparts).1
      | cons p before =>
        obtain ⟨rfl, hrest⟩ := List.cons.inj hparts
        rw [hzero] at hrest
        have hnext := ih (h.split hzero) hrest
        obtain ⟨q, qs, hq⟩ := List.exists_cons_of_ne_nil
          (List.append_ne_nil_of_right_ne_nil before (List.cons_ne_nil left []))
        rw [hq] at hnext
        rw [List.cons_append, hq, List.intercalate_cons_cons]
        simpa only [List.append_assoc] using hnext
    · rename_i hc
      exact ih (h.next (hsep depth) hc) hparts

end Scanned

/-- A separator that is no bracket splits a text outside the brackets. -/
theorem splitsOutside_splitOutside (hsep : ∀ depth, bracketDepth depth sep = depth)
    (cs : List Char) : SplitsOutside sep cs (splitOutside sep cs) where
  joined := by rw [← joinParts_eq, joinParts_splitOutside]
  outside _ _ hbefore hafter hparts :=
    (Scanned.start sep).outside_splitFrom hsep hbefore hafter hparts
  inside _ _ _ _ hparts := (Scanned.start sep).inside_splitFrom hsep hparts

/-! ### Parts of a word -/

/-- A word is its variants and what is left of it. -/
theorem joinParts_variants (raw : List Char) :
    joinParts ':' ((splitOutside ':' raw).dropLast ++ [(splitOutside ':' raw).getLast?.getD []]) =
      raw := by
  have hne : splitOutside ':' raw ≠ [] := splitFrom_ne_nil _ _ _ _
  rw [List.getLast?_eq_some_getLast hne, Option.getD_some, List.dropLast_concat_getLast hne,
    joinParts_splitOutside]

/-- With the mark of importance on one side, or without it. -/
theorem takeImportant_spelled (cs : List Char) :
    if (takeImportant cs).1 then cs = '!' :: (takeImportant cs).2 ∨ cs = (takeImportant cs).2 ++ ['!']
    else cs = (takeImportant cs).2 := by
  simp only [takeImportant]
  split
  · simp
  · split
    · rename_i hlast
      have hcs := congrArg List.reverse hlast
      rw [List.reverse_reverse, List.reverse_cons] at hcs
      simp [hcs]
    · simp

theorem takeNegative_spelled (cs : List Char) :
    cs = (bif (takeNegative cs).1 then ['-'] else []) ++ (takeNegative cs).2 := by
  simp only [takeNegative]
  split <;> rfl

/-- The modifier stands after the last slash. -/
theorem takeModifier_spelled (cs : List Char) :
    cs = (takeModifier cs).1 ++ (takeModifier cs).2.elim [] ('/' :: ·) := by
  simp only [takeModifier]
  split
  · rename_i last p ps hparts
    have hsplit := congrArg List.reverse hparts
    rw [List.reverse_reverse, List.reverse_cons] at hsplit
    rw [Option.elim_some, ← joinParts_concat (by simp), ← hsplit, joinParts_splitOutside]
  · simp

/-- The offset counts the characters before a hyphen and a bracket. -/
theorem openingOffset?_eq_some {offset k : Nat} {cs : List Char}
    (h : openingOffset? offset cs = some k) :
    ∃ before after, cs = before ++ '-' :: '[' :: after ∧ k = offset + before.length := by
  induction cs generalizing offset with
  | nil => cases h
  | cons c cs ih =>
    rw [openingOffset?.eq_def] at h
    split at h
    · rename_i after heq
      exact ⟨[], after, heq, (Option.some.inj h).symm⟩
    · rename_i heq
      obtain ⟨rfl, rfl⟩ := List.cons.inj heq
      obtain ⟨before, after, rfl, rfl⟩ := ih h
      exact ⟨c :: before, after, rfl, by rw [List.length_cons]; omega⟩
    · cases h

theorem takeBrackets_eq_value {cs utility content : List Char}
    (h : takeBrackets cs = .value utility content) :
    cs = utility ++ '-' :: '[' :: (content ++ [']']) := by
  simp only [takeBrackets] at h
  split at h
  · cases h
  split at h
  · rename_i k hk
    obtain ⟨before, after, rfl, hlength⟩ := openingOffset?_eq_some hk
    split at h
    · rename_i hlast
      obtain ⟨rfl, rfl⟩ := Brackets.value.inj h
      simp only [Bool.and_eq_true, beq_iff_eq] at hlast
      obtain ⟨content, rfl⟩ : ∃ content, after = content ++ [']'] := by
        rcases List.eq_nil_or_concat after with rfl | ⟨content, c, rfl⟩
        · simp at hlast
        · refine ⟨content, ?_⟩
          rw [List.concat_eq_append, ← List.cons_append, ← List.cons_append, ← List.append_assoc,
            List.getLast?_concat] at hlast
          rw [List.concat_eq_append, Option.some.inj hlast.1]
      have htake : (before ++ '-' :: '[' :: (content ++ [']'])).take (k + 1) = before :=
        List.take_left' (by omega)
      have hdrop : (before ++ '-' :: '[' :: (content ++ [']'])).drop (k + 3) = content ++ [']'] := by
        have hjoin : before ++ '-' :: '[' :: (content ++ [']']) =
            (before ++ ['-', '[']) ++ (content ++ [']']) := by simp
        rw [hjoin]
        exact List.drop_left' (by simp; omega)
      rw [htake, hdrop, List.dropLast_concat]
    · cases h
  · cases h

/-- What a word says beside its variants and the mark of importance. -/
def Token.body (t : Token) : String :=
  (bif t.negative then "-" else "") ++ t.utility ++
    t.arbitrary.elim "" (fun value => "-[" ++ value ++ "]") ++ t.modifier.elim "" ("/" ++ ·)

theorem toList_body (raw : List Char) :
    (Token.ofChars raw).body.toList =
      (takeImportant ((splitOutside ':' raw).getLast?.getD [])).2 := by
  simp only [Token.ofChars, Token.body]
  generalize (splitOutside ':' raw).getLast?.getD [] = base
  rcases takeImportant base with ⟨important, body⟩
  have hbody := takeNegative_spelled body
  rcases hsign : takeNegative body with ⟨negative, unsigned⟩
  have hunsigned := takeModifier_spelled unsigned
  rcases hname : takeModifier unsigned with ⟨name, modifier⟩
  rw [hsign] at hbody
  rw [hname] at hunsigned
  simp only [hbody, hunsigned]
  cases hbrackets : takeBrackets name with
  | value utility content =>
    rw [takeBrackets_eq_value hbrackets]
    cases negative <;> cases modifier <;> simp
  | absent => cases negative <;> cases modifier <;> simp
  | misplaced => cases negative <;> cases modifier <;> simp

/-- A word is its variants and its body, which the mark of importance may follow or come before. -/
theorem ofChars_spelled (raw : List Char) :
    ∃ base, raw = joinParts ':' ((Token.ofChars raw).variants.map String.toList ++ [base]) ∧
      let body := (Token.ofChars raw).body.toList
      if (Token.ofChars raw).important then base = '!' :: body ∨ base = body ++ ['!']
      else base = body := by
  have hvariants : (Token.ofChars raw).variants.map String.toList =
      (splitOutside ':' raw).dropLast := by
    simp [Token.ofChars]
  refine ⟨_, by rw [hvariants]; exact (joinParts_variants raw).symm, ?_⟩
  rw [toList_body]
  exact takeImportant_spelled _

/-- A word with a modifier and neither a sign nor a bracketed value: its variants, and the utility with
the modifier, which the mark of importance may follow or come before. -/
theorem raw_of_modifier {raw : List Char} {m : String}
    (hpositive : (Token.ofChars raw).negative = false)
    (hplain : (Token.ofChars raw).arbitrary = none)
    (hm : (Token.ofChars raw).modifier = some m) :
    ∃ base, raw = joinParts ':' ((Token.ofChars raw).variants.map String.toList ++ [base]) ∧
      let body := (Token.ofChars raw).utility.toList ++ '/' :: m.toList
      (base = body ∨ base = '!' :: body ∨ base = body ++ ['!']) := by
  obtain ⟨base, hraw, hbase⟩ := ofChars_spelled raw
  have hbody : (Token.ofChars raw).body.toList =
      (Token.ofChars raw).utility.toList ++ '/' :: m.toList := by
    simp [Token.body, hpositive, hplain, hm]
  rw [hbody] at hbase
  refine ⟨base, hraw, ?_⟩
  split at hbase
  · exact .inr hbase
  · exact .inl hbase

/-- A word that is a token's variants, with a colon behind each, and its body, which the mark of
importance may follow or come before. -/
def Token.Spells (t : Token) (raw : String) : Prop :=
  ∃ base, raw = String.intercalate ":" (t.variants ++ [base]) ∧
    if t.important then base = "!" ++ t.body ∨ base = t.body ++ "!" else base = t.body

/-- Nothing of a word is lost when it is taken apart, and the separators of variants and modifiers
split a text where no bracket is open, and nowhere else. -/
theorem ofString_spelled (raw : String) :
    (Token.ofString raw).Spells raw ∧
      ∀ cs, SplitsOutside ':' cs (splitOutside ':' cs) ∧
        SplitsOutside '/' cs (splitOutside '/' cs) := by
  obtain ⟨base, hraw, hbase⟩ := ofChars_spelled raw.toList
  have htoken : Token.ofChars raw.toList = Token.ofString raw := rfl
  rw [htoken] at hraw hbase
  generalize Token.ofString raw = t at *
  refine ⟨⟨String.ofList base, ?_, ?_⟩, fun cs => ⟨splitsOutside_splitOutside (fun _ => rfl) cs,
    splitsOutside_splitOutside (fun _ => rfl) cs⟩⟩
  · rw [← String.toList_inj, hraw, joinParts_eq, String.toList_intercalate, List.map_append,
      List.map_singleton, String.toList_ofList, String.toList_ofList]
  · have hbefore : String.ofList ('!' :: t.body.toList) = "!" ++ t.body := by
      rw [← String.toList_inj]
      simp
    have hbehind : String.ofList (t.body.toList ++ ['!']) = t.body ++ "!" := by
      rw [← String.toList_inj]
      simp
    split at hbase
    · rw [if_pos ‹_›, ← hbefore, ← hbehind]
      exact hbase.imp (congrArg _) (congrArg _)
    · rw [if_neg ‹_›, hbase, String.ofList_toList]

end DesignTokens.Utility
