import DesignTokens.Proofs.Utility.Unbroken

/-!
The vocabulary in any order. A token that is no layout keyword has the meaning of its value under the
longest name that its utility reads as, and none where there is no such name. Names of one length do
not compete, so that it does not matter in which order the vocabulary was filled.
-/
namespace DesignTokens.Utility

open Text

/-- A utility is a name by itself, with no value, or a name with a value after a hyphen. -/
def Reads (utility name value : String) : Prop :=
  utility = name ∧ value = "" ∨ utility = name ++ "-" ++ value

/-- The longest name of the vocabulary that a utility reads as; every other one is shorter. -/
structure LongestName (utility name value : String) : Prop where
  reads : Reads utility name value
  longest : ∀ other ∈ Table.keys vocabulary, ∀ v, Reads utility other v → other ≠ name →
    other.length < name.length

section

variable (scales : Theme.Scales) (settings : Settings)

/-- The meaning of a token's utility by a vocabulary of which the longer names are tried first, as
they come. -/
def meaningBy (entries : List (String × Family)) (t : Token) : Meaning :=
  match (if t.arbitrary.isNone then Table.get? t.utility layoutKeywords else none) with
  | some update => .ok update
  | none => match firstFit? (·.1) (longestFirst (·.1) entries) t.utility with
    | some ((_, family), value) => familyMeaning scales settings t value family
    | none => .error "no handler for utility"

end

/-! ### Values -/

theorem valueUnder?_eq_some_iff {utility name value : String} :
    valueUnder? utility name = some value ↔ Reads utility name value := by
  rw [valueUnder?, Reads]
  by_cases hsame : utility = name
  · subst hsame
    have hlonger : utility ≠ utility ++ "-" ++ value := by
      intro h
      have := congrArg String.length h
      simp only [String.length_append] at this
      have hhyphen : "-".length = 1 := rfl
      omega
    simp [hlonger, eq_comm]
  · rw [if_neg (by simpa using hsame), after?_eq_some_iff]
    simp [hsame]

/-! ### Orders -/

variable {entries : List (String × Family)} {utility : String}

/-- The entry that is found first is the one with the longest name. -/
theorem firstFit?_eq_lookup? (hentries : entries.Perm vocabulary) :
    (firstFit? (·.1) (longestFirst (·.1) entries) utility).map (fun found =>
      (found.1.2, found.2)) = lookup? vocabulary utility := by
  cases hlookup : lookup? vocabulary utility with
  | none =>
    have hnone := lookup?_eq_none hlookup
    rw [firstFit?_eq_none_iff.mpr fun p hp =>
      hnone p (hentries.mem_iff.mp (mem_longestFirst.mp hp))]
    rfl
  | some found =>
    obtain ⟨name, hentry, hvalue, hlongest⟩ := lookup?_eq_some hlookup
    have hnames : (entries.map (·.1)).Nodup := (hentries.map _).nodup_iff.mpr
      Attempt.nodup_vocabulary
    rw [firstFit?_of_longest hnames (hentries.mem_iff.mpr hentry) hvalue fun p hp =>
      hlongest p (hentries.mem_iff.mp hp)]
    rfl

variable (scales : Theme.Scales) (settings : Settings)

theorem meaningBy_eq (hentries : entries.Perm vocabulary) (t : Token) :
    meaningBy scales settings entries t = utilityMeaning scales settings t := by
  rw [meaningBy, utilityMeaning, ← firstFit?_eq_lookup? hentries]
  cases firstFit? (·.1) (longestFirst (·.1) entries) t.utility <;> rfl

/-- What is found in the vocabulary stands under the longest name. -/
theorem longestName_of_lookup? {value : String} {family : Family}
    (h : lookup? vocabulary utility = some (family, value)) :
    ∃ name, (name, family) ∈ vocabulary ∧ LongestName utility name value := by
  obtain ⟨name, hentry, hvalue, hlongest⟩ := lookup?_eq_some h
  refine ⟨name, hentry, valueUnder?_eq_some_iff.mp hvalue, fun other hother v hv hne => ?_⟩
  obtain ⟨p, hp, rfl⟩ := List.mem_map.mp hother
  have hfits := valueUnder?_eq_some_iff.mpr hv
  refine lt_of_le_of_ne (hlongest p hp (by rw [hfits]; rfl)) fun hlength => hne ?_
  exact eq_of_valueUnder? hfits hvalue hlength

/-- Whatever the order of the vocabulary, a token that is no layout keyword has the meaning of the
value under the longest name that its utility reads as, and is dropped where there is none. -/
theorem meaningBy_longest_name (hentries : entries.Perm vocabulary) (t : Token) :
    meaningBy scales settings entries t = utilityMeaning scales settings t ∧
    (t.arbitrary.isSome ∨ t.utility ∉ Table.keys layoutKeywords →
      (∃ name family value, (name, family) ∈ vocabulary ∧ LongestName t.utility name value ∧
        utilityMeaning scales settings t = familyMeaning scales settings t value family) ∨
      (∀ name ∈ Table.keys vocabulary, ∀ value, ¬Reads t.utility name value) ∧
        utilityMeaning scales settings t = .error "no handler for utility") := by
  refine ⟨meaningBy_eq scales settings hentries t, fun hkeyword => ?_⟩
  have hnone : (if t.arbitrary.isNone then Table.get? t.utility layoutKeywords else none) =
      none := by
    rcases hkeyword with hbracketed | habsent
    · rw [if_neg (by simp [Option.isNone_eq_false_iff.mpr hbracketed])]
    · rw [Table.get?_eq_none_iff.mpr habsent, ite_self]
  rw [utilityMeaning, hnone]
  cases hlookup : lookup? vocabulary t.utility with
  | none =>
    refine .inr ⟨fun name hname value hreads => ?_, rfl⟩
    obtain ⟨p, hp, rfl⟩ := List.mem_map.mp hname
    have hunfit := lookup?_eq_none hlookup p hp
    rw [valueUnder?_eq_some_iff.mpr hreads] at hunfit
    cases hunfit
  | some found =>
    obtain ⟨family, value⟩ := found
    obtain ⟨name, hentry, hlongest⟩ := longestName_of_lookup? hlookup
    exact .inl ⟨name, family, value, hentry, hlongest, rfl⟩

/-- A corner has a name of its own beside that of all corners, also when the vocabulary is filled
backwards. -/
theorem meaningBy_longest_name_corner : let t := Token.ofString "rounded-tl-full"
    vocabulary.reverse.Perm vocabulary ∧ t.utility ∉ Table.keys layoutKeywords ∧
    meaningBy .plain {} vocabulary.reverse t = utilityMeaning .plain {} t ∧
    ∃ name family value, (name, family) ∈ vocabulary ∧ LongestName t.utility name value ∧
      utilityMeaning .plain {} t = familyMeaning .plain {} t value family := by
  intro t
  have hkeyword : t.utility ∉ Table.keys layoutKeywords := by decide +kernel
  obtain ⟨hsame, hmeaning⟩ :=
    meaningBy_longest_name .plain {} (List.reverse_perm vocabulary) t
  refine ⟨List.reverse_perm _, hkeyword, hsame, (hmeaning (.inr hkeyword)).resolve_right ?_⟩
  rintro ⟨hnone, -⟩
  exact hnone "rounded" (by decide) "tl-full" (.inr (by decide +kernel))

end DesignTokens.Utility
