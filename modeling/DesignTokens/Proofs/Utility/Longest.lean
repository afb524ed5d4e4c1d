import DesignTokens.Proofs.Tables
import DesignTokens.Proofs.Text.Words
import DesignTokens.Utility.Meaning
import Mathlib.Data.List.Nodup

/-!
Names of utilities. Of the names that fit a utility the longest one counts; two that are as long are
the same, and what follows the name is the value. It is also the first one that fits when longer
names are tried before shorter ones.
-/
namespace DesignTokens.Utility

open Text

theorem valueUnder?_starts {utility name value : String}
    (h : valueUnder? utility name = some value) : name.toList <+: utility.toList := by
  rw [valueUnder?] at h
  split at h
  · rename_i hsame
    exact beq_iff_eq.mp hsame ▸ List.prefix_rfl
  · rw [after?_eq_some_iff.mp h, String.append_assoc, String.toList_append]
    exact List.prefix_append _ _

/-- A value that is not empty stands behind the name and a hyphen. -/
theorem eq_append_of_valueUnder? {utility name value : String}
    (h : valueUnder? utility name = some value) (hvalue : value ≠ "") :
    utility = name ++ "-" ++ value := by
  rw [valueUnder?] at h
  split at h
  · exact absurd (Option.some.inj h).symm hvalue
  · exact after?_eq_some_iff.mp h

/-- Two names of one length that fit the same utility are one name. -/
theorem eq_of_valueUnder? {utility name other value value' : String}
    (h : valueUnder? utility name = some value) (h' : valueUnder? utility other = some value')
    (hlength : name.length = other.length) : name = other := by
  have hsame : name.toList.length = other.toList.length := by
    rwa [String.length_toList, String.length_toList]
  have hstart := List.prefix_of_prefix_length_le (valueUnder?_starts h) (valueUnder?_starts h')
    (Nat.le_of_eq hsame)
  exact String.toList_inj.mp (hstart.eq_of_length hsame)

/-! ### Entries by the length of the name -/

/-- The entry that is kept is one of them. -/
theorem mem_of_foldl_longer {found : List (Nat × Family × String)}
    {best : Option (Nat × Family × String)} {e : Nat × Family × String}
    (h : found.foldl (fun best entry => match best with
      | some b => if b.1 < entry.1 then some entry else best
      | none => some entry) best = some e) : e ∈ found ∨ best = some e := by
  induction found generalizing best with
  | nil => exact .inr h
  | cons entry found ih =>
    rcases ih h with hmem | hbest
    · exact .inl (List.mem_cons_of_mem _ hmem)
    · dsimp only at hbest
      split at hbest
      · split at hbest
        · exact .inl (Option.some.inj hbest ▸ List.mem_cons_self)
        · exact .inr hbest
      · exact .inl (Option.some.inj hbest ▸ List.mem_cons_self)

/-- The entry that is kept has the longest name. -/
theorem le_of_foldl_longer {found : List (Nat × Family × String)}
    {best : Option (Nat × Family × String)} {e : Nat × Family × String}
    (h : found.foldl (fun best entry => match best with
      | some b => if b.1 < entry.1 then some entry else best
      | none => some entry) best = some e) :
    (∀ b ∈ best, b.1 ≤ e.1) ∧ ∀ f ∈ found, f.1 ≤ e.1 := by
  induction found generalizing best with
  | nil =>
    subst h
    simp
  | cons entry found ih =>
    obtain ⟨hbest, hfound⟩ := ih h
    cases best with
    | none => exact ⟨by simp, List.forall_mem_cons.mpr ⟨hbest _ rfl, hfound⟩⟩
    | some b =>
      have hboth : b.1 ≤ e.1 ∧ entry.1 ≤ e.1 := by
        dsimp only at hbest
        split at hbest
        · rename_i hlonger
          exact ⟨Nat.le_trans (Nat.le_of_lt hlonger) (hbest _ rfl), hbest _ rfl⟩
        · rename_i hkept
          exact ⟨hbest _ rfl, Nat.le_trans (Nat.le_of_not_lt hkept) (hbest _ rfl)⟩
      refine ⟨?_, List.forall_mem_cons.mpr ⟨hboth.2, hfound⟩⟩
      intro c hc
      obtain rfl := Option.some.inj hc
      exact hboth.1

theorem foldl_longer_eq_none {found : List (Nat × Family × String)}
    {best : Option (Nat × Family × String)}
    (h : found.foldl (fun best entry => match best with
      | some b => if b.1 < entry.1 then some entry else best
      | none => some entry) best = none) : found = [] := by
  induction found generalizing best with
  | nil => rfl
  | cons entry found ih =>
    obtain rfl := ih h
    dsimp only [List.foldl_cons, List.foldl_nil] at h
    split at h
    · split at h <;> cases h
    · cases h

section

variable {entries : List (String × Family)} {utility : String}

theorem lookup?_eq_none (h : lookup? entries utility = none) :
    ∀ p ∈ entries, valueUnder? utility p.1 = none := by
  have hnone := foldl_longer_eq_none (Option.map_eq_none_iff.mp h)
  intro p hp
  have hp' := List.filterMap_eq_nil_iff.mp hnone p hp
  exact Option.map_eq_none_iff.mp hp'

/-- What is found stands under the longest of the names that fit. -/
theorem lookup?_eq_some {family : Family} {value : String}
    (h : lookup? entries utility = some (family, value)) :
    ∃ name, (name, family) ∈ entries ∧ valueUnder? utility name = some value ∧
      ∀ p ∈ entries, (valueUnder? utility p.1).isSome → p.1.length ≤ name.length := by
  obtain ⟨e, he, hsame⟩ := Option.map_eq_some_iff.mp h
  obtain ⟨-, hlongest⟩ := le_of_foldl_longer he
  rcases mem_of_foldl_longer he with hmem | hnone
  · obtain ⟨⟨name, found⟩, hentry, hvalue⟩ := List.mem_filterMap.mp hmem
    obtain ⟨v, hv, rfl⟩ := Option.map_eq_some_iff.mp hvalue
    obtain ⟨rfl, rfl⟩ := Prod.mk.inj hsame
    refine ⟨name, hentry, hv, fun p hp hfits => ?_⟩
    obtain ⟨w, hw⟩ := Option.isSome_iff_exists.mp hfits
    exact hlongest _ (List.mem_filterMap.mpr ⟨p, hp, Option.map_eq_some_iff.mpr ⟨w, hw, rfl⟩⟩)
  · cases hnone

end

/-- What is found under a name ends the utility. -/
theorem suffix_of_lookup? {entries : List (String × Family)} {utility value : String}
    {family : Family} (h : lookup? entries utility = some (family, value)) :
    value.toList <:+ utility.toList := by
  obtain ⟨name, -, hvalue, -⟩ := lookup?_eq_some h
  simp only [valueUnder?, Text.after?] at hvalue
  split at hvalue
  · obtain rfl := Option.some.inj hvalue
    exact List.nil_suffix
  · split at hvalue
    · obtain rfl := Option.some.inj hvalue
      simpa using List.drop_suffix _ utility.toList
    · cases hvalue

/-! ### Names in turn -/

section

variable {α : Type}

/-- The first of some items whose name fits a utility, and the value that the name leaves. -/
def firstFit? (name : α → String) (xs : List α) (utility : String) : Option (α × String) :=
  xs.findSome? fun x => (valueUnder? utility (name x)).map fun value => (x, value)

/-- The items with longer names before those with shorter ones. -/
def longestFirst (name : α → String) (xs : List α) : List α :=
  xs.mergeSort fun x y => decide ((name y).length ≤ (name x).length)

variable {name : α → String} {xs : List α} {utility : String}

theorem mem_longestFirst {x : α} : x ∈ longestFirst name xs ↔ x ∈ xs :=
  List.mem_mergeSort

theorem pairwise_longestFirst :
    (longestFirst name xs).Pairwise fun x y => (name y).length ≤ (name x).length := by
  have hsorted : (longestFirst name xs).Pairwise fun x y =>
      decide ((name y).length ≤ (name x).length) := List.pairwise_mergeSort
    (fun x y z hxy hyz => by
      rw [decide_eq_true_eq] at hxy hyz ⊢
      exact hyz.trans hxy)
    (fun x y => by
      rw [Bool.or_eq_true, decide_eq_true_eq, decide_eq_true_eq]
      exact Nat.le_total _ _) xs
  exact hsorted.imp of_decide_eq_true

theorem firstFit?_eq_none_iff :
    firstFit? name xs utility = none ↔ ∀ x ∈ xs, valueUnder? utility (name x) = none := by
  simp [firstFit?, List.findSome?_eq_none_iff]

/-- The first name that fits is the longest one that does. -/
theorem longest_of_firstFit? {x : α} {value : String}
    (h : firstFit? name (longestFirst name xs) utility = some (x, value)) :
    x ∈ xs ∧ valueUnder? utility (name x) = some value ∧
      ∀ y ∈ xs, (valueUnder? utility (name y)).isSome → (name y).length ≤ (name x).length := by
  obtain ⟨longer, found, shorter, hnames, hfound, hlonger⟩ := List.findSome?_eq_some_iff.mp h
  obtain ⟨v, hv, hsame⟩ := Option.map_eq_some_iff.mp hfound
  obtain ⟨rfl, rfl⟩ := Prod.mk.inj hsame
  have hsorted := @pairwise_longestFirst _ name xs
  refine ⟨mem_longestFirst.mp (hnames ▸ List.mem_append_right _ List.mem_cons_self), hv,
    fun y hy hfits => ?_⟩
  have hy : y ∈ longestFirst name xs := mem_longestFirst.mpr hy
  rw [hnames] at hy hsorted
  rcases List.mem_append.mp hy with hmem | hmem
  · rw [Option.map_eq_none_iff.mp (hlonger y hmem)] at hfits
    cases hfits
  · rcases List.mem_cons.mp hmem with rfl | hmem
    · exact le_rfl
    · exact (List.pairwise_cons.mp (List.pairwise_append.mp hsorted).2.1).1 y hmem

/-- Of names that are all different, only the longest one that fits comes first. -/
theorem firstFit?_of_longest (hnames : (xs.map name).Nodup) {x : α} {value : String} (hx : x ∈ xs)
    (hvalue : valueUnder? utility (name x) = some value)
    (hlongest : ∀ y ∈ xs, (valueUnder? utility (name y)).isSome →
      (name y).length ≤ (name x).length) :
    firstFit? name (longestFirst name xs) utility = some (x, value) := by
  cases hfirst : firstFit? name (longestFirst name xs) utility with
  | none =>
    have hunfit := firstFit?_eq_none_iff.mp hfirst x (mem_longestFirst.mpr hx)
    rw [hvalue] at hunfit
    cases hunfit
  | some found =>
    obtain ⟨y, value'⟩ := found
    obtain ⟨hy, hvalue', hlongest'⟩ := longest_of_firstFit? hfirst
    have hlength : (name y).length = (name x).length :=
      le_antisymm (hlongest y hy (by rw [hvalue']; rfl)) (hlongest' x hx (by rw [hvalue]; rfl))
    obtain rfl := List.inj_on_of_nodup_map hnames hy hx (eq_of_valueUnder? hvalue' hvalue hlength)
    rw [hvalue] at hvalue'
    rw [Option.some.inj hvalue']

end

end DesignTokens.Utility
