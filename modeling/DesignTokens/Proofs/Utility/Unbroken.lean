import DesignTokens.Proofs.Utility.Attempts

/-!
Parsing does not break. The names of utilities are tried from the longest one on, which finds the
entry with the longest fitting name; words come apart into tokens; and a run over the tokens leaves a
style, and a warning for each one that is dropped.
-/
namespace DesignTokens.Utility

open Text

namespace Attempt

theorem mem_names {name : String} : name ∈ names ↔ name ∈ Table.keys vocabulary :=
  @mem_longestFirst _ id _ _

theorem nodup_vocabulary : (Table.keys vocabulary).Nodup := by
  decide +kernel

theorem firstFit?_names_eq_none {utility : String} (h : lookup? vocabulary utility = none) :
    firstFit? id names utility = none := by
  refine firstFit?_eq_none_iff.mpr fun name hname => ?_
  obtain ⟨p, hp, rfl⟩ := List.mem_map.mp (mem_names.mp hname)
  exact lookup?_eq_none h p hp

/-- Trying the names in turn finds the entry that has the longest of them. -/
theorem firstFit?_names_eq_some {utility value : String} {family : Family}
    (h : lookup? vocabulary utility = some (family, value)) :
    ∃ name, firstFit? id names utility = some (name, value) ∧
      entry name vocabulary = .ok family := by
  obtain ⟨name, hentry, hvalue, hlongest⟩ := lookup?_eq_some h
  refine ⟨name, ?_, entry_of_get? (Table.get?_of_mem nodup_vocabulary hentry)⟩
  refine firstFit?_of_longest (by rw [List.map_id]; exact nodup_vocabulary)
    (List.mem_map_of_mem hentry) hvalue fun other hother hfits => ?_
  obtain ⟨p, hp, rfl⟩ := List.mem_map.mp hother
  exact hlongest p hp hfits

/-! ### Words -/

theorem splitLast_eq {α : Type} {xs : List α} (h : xs ≠ []) :
    splitLast xs = .ok (xs.dropLast, xs.getLast h) := by
  have hitem : item xs (xs.length - 1) = .ok (xs.getLast h) := by
    rw [item, ← List.getLast?_eq_getElem?, List.getLast?_eq_some_getLast h]
  rw [splitLast, hitem]
  rfl

theorem splitModifier_eq (cs : List Char) : splitModifier cs = .ok (takeModifier cs) := by
  unfold splitModifier takeModifier
  generalize splitOutside '/' cs = parts
  rcases List.eq_nil_or_concat' parts with rfl | ⟨names, last, rfl⟩
  · rfl
  cases hnames : names.reverse with
  | nil =>
    obtain rfl := List.reverse_eq_nil_iff.mp hnames
    rfl
  | cons p ps =>
    have hlength : 1 < (names ++ [last]).length := by
      have := congrArg List.length hnames
      simp only [List.length_reverse, List.length_cons] at this
      simp only [List.length_append, List.length_cons, List.length_nil]
      omega
    have hsplit : splitLast (names ++ [last]) = .ok (names, last) := by
      rw [splitLast_eq (by simp), List.dropLast_concat, List.getLast_concat]
    simp only [if_pos hlength, hsplit, List.reverse_concat, hnames, bind_ok]
    rw [← hnames, List.reverse_reverse]
    rfl

/-- A word comes apart into the token that it is. -/
theorem token_eq (raw : List Char) : token raw = .ok (Token.ofChars raw) := by
  unfold token Token.ofChars
  have hne : splitOutside ':' raw ≠ [] := splitFrom_ne_nil _ _ _ _
  simp only [splitLast_eq hne, List.getLast?_eq_some_getLast hne, bind_ok, Option.getD_some,
    splitModifier_eq]
  rfl

theorem tokens_eq (classes : String) : tokens classes = .ok (Utility.tokens classes) :=
  mapM_eq_pure fun w _ => token_eq w.toList

/-! ### Class strings -/

variable (scales : Theme.Scales) (settings : Settings)

theorem utility_eq (t : Token) :
    utility scales settings t = (utilityMeaning scales settings t).mapError .dropped := by
  unfold utility utilityMeaning
  cases (if t.arbitrary.isNone then Table.get? t.utility layoutKeywords else none) with
  | some update => rfl
  | none =>
    dsimp only
    cases hlookup : lookup? vocabulary t.utility with
    | none =>
      have hnone := firstFit?_names_eq_none hlookup
      rw [firstFit?] at hnone
      simp only [id] at hnone
      rw [hnone]
      rfl
    | some found =>
      obtain ⟨name, hfirst, hentry⟩ := firstFit?_names_eq_some hlookup
      rw [firstFit?] at hfirst
      simp only [id] at hfirst
      rw [hfirst]
      simp only [hentry, lift_ok, bind_ok]
      exact family_eq scales settings t found.2 found.1

/-- What a token does, or why it is dropped; no step breaks. -/
theorem outcome_eq (t : Token) : outcome scales settings t =
    match Utility.outcome scales settings t with
    | .dropped reason => .error (.dropped reason)
    | o => .ok o := by
  unfold outcome Utility.outcome
  simp only [utility_eq]
  split
  · rfl
  cases t.variants with
  | nil => cases utilityMeaning scales settings t <;> rfl
  | cons v vs =>
    cases vs with
    | nil =>
      have hitem : item [v] 0 = .ok v := rfl
      cases hstate : settings.stateVariants.contains v with
      | true =>
        simp only [hitem, hstate, lift_ok, bind_ok]
        cases utilityMeaning scales settings t <;> rfl
      | false =>
        simp only [hitem, hstate, lift_ok, bind_ok]
        rfl
    | cons w ws => rfl

/-- A token acts, or leaves a warning. -/
theorem add_eq (p : Parsed) (t : Token) : add scales settings p t = .ok
    ⟨(Utility.outcome scales settings t).apply p.appearance,
      p.warnings ++ ((Utility.outcome scales settings t).warning? t.raw).toList⟩ := by
  rw [add, outcome_eq]
  cases Utility.outcome scales settings t <;> simp [Outcome.apply, Outcome.warning?]

theorem foldlM_add (ts : List Token) (p : Parsed) : ts.foldlM (add scales settings) p = .ok
    ⟨appearanceOf scales settings ts p.appearance, p.warnings ++ warningsOf scales settings ts⟩ := by
  induction ts generalizing p with
  | nil =>
    rw [warningsOf, List.filterMap_nil, List.append_nil]
    rfl
  | cons t ts ih =>
    rw [List.foldlM_cons, add_eq, bind_ok, ih, List.append_assoc]
    refine congrArg _ (congrArg _ (congrArg _ ?_))
    rw [warningsOf, warningsOf, List.filterMap_cons]
    cases (Utility.outcome scales settings t).warning? t.raw <;> rfl

theorem parse_eq (classes : String) :
    parse scales settings classes = .ok (Utility.parse scales settings classes) := by
  rw [parse, tokens_eq, bind_ok, foldlM_add]
  rfl

end Attempt

variable (scales : Theme.Scales) (settings : Settings)

/-- A word leaves at most one warning, with the word in it. -/
theorem map_token_warningsOf_sublist (ws : List String) :
    ((warningsOf scales settings (ws.map Token.ofString)).map (·.token)).Sublist ws := by
  induction ws with
  | nil => exact .slnil
  | cons w ws ih =>
    rw [warningsOf, List.map_cons, List.filterMap_cons]
    cases hwarning : (outcome scales settings (Token.ofString w)).warning?
        (Token.ofString w).raw with
    | none => exact ih.cons w
    | some warning =>
      have hword : warning.token = w := by
        cases ho : outcome scales settings (Token.ofString w) with
        | dropped reason =>
          rw [ho] at hwarning
          obtain rfl := Option.some.inj hwarning
          exact raw_ofString w
        | base u =>
          rw [ho] at hwarning
          cases hwarning
        | state name u =>
          rw [ho] at hwarning
          cases hwarning
      rw [List.map_cons, hword]
      exact ih.cons_cons w

/-- Parsing never breaks: it comes to a style, and to at most one warning for each word of the class
string, in the order of the words. -/
theorem attempt_parse (classes : String) :
    Attempt.parse scales settings classes = .ok (parse scales settings classes) ∧
      ((parse scales settings classes).warnings.map (·.token)).Sublist (words classes) :=
  ⟨Attempt.parse_eq scales settings classes,
    map_token_warningsOf_sublist scales settings (words classes)⟩

end DesignTokens.Utility
