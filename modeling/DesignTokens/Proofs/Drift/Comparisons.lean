import DesignTokens.Drift.Sync
import DesignTokens.Proofs.Results

/-!
Comparisons with theme data. Numbers are compared as floats, so that a comparison breaks off at an
integer that no float comes near; it also does at one with too many digits to be read, and at nothing
else.
-/
namespace DesignTokens.Drift

open Json (Mismatch)

mutual

/-- Every number of a value is a float or comes near one. -/
def InRange : Json → Prop
  | .num n => n.toFloat?.isSome
  | .arr items => InRangeItems items
  | .obj fields => InRangeFields fields
  | _ => True

def InRangeItems : List Json → Prop
  | [] => True
  | x :: xs => InRange x ∧ InRangeItems xs

def InRangeFields : Table Json → Prop
  | [] => True
  | (_, x) :: fs => InRange x ∧ InRangeFields fs

end

/-- A text that can be compared with the layers of a snapshot. -/
structure ComparesWith (text : String) (layers : Table Json) : Prop where
  readable : ∀ f digits, Json.read text = .error f → f.problem ≠ .longInteger digits
  inRange : ∀ data, Json.read text = .ok (.obj data) → ∀ l ∈ layers,
    InRange ((Table.get? l.1 data).getD .null) ∧ InRange l.2

mutual

/-- A value has a normal form if its numbers have. -/
theorem failure?_normalize_eq_none_iff : (v : Json) → (failure? (normalize v) = none ↔ InRange v)
  | .null | .bool _ | .str _ => by simp [normalize, InRange]
  | .num n => by
    rw [normalize, InRange]
    cases n.toFloat? <;> simp
  | .arr items => by
    rw [normalize, InRange, failure?_map, failure?_normalizeItems_eq_none_iff items]
  | .obj fields => by
    rw [normalize, InRange, failure?_map, failure?_normalizeFields_eq_none_iff fields]

theorem failure?_normalizeItems_eq_none_iff :
    (items : List Json) → (failure? (normalizeItems items) = none ↔ InRangeItems items)
  | [] => by simp [normalizeItems, InRangeItems]
  | x :: xs => by
    rw [normalizeItems, failure?_combine, Option.or_eq_none_iff,
      failure?_normalize_eq_none_iff x, failure?_normalizeItems_eq_none_iff xs, InRangeItems]

theorem failure?_normalizeFields_eq_none_iff :
    (fields : Table Json) → (failure? (normalizeFields fields) = none ↔ InRangeFields fields)
  | [] => by simp [normalizeFields, InRangeFields]
  | (k, x) :: fs => by
    rw [normalizeFields, failure?_combine fun y ys => (k, y) :: ys, Option.or_eq_none_iff,
      failure?_normalize_eq_none_iff x, failure?_normalizeFields_eq_none_iff fs, InRangeFields]

end

theorem failure?_agree_eq_none_iff (found expected : Json) :
    failure? (agree found expected) = none ↔ InRange found ∧ InRange expected := by
  rw [agree, failure?_combine, Option.or_eq_none_iff, failure?_normalize_eq_none_iff,
    failure?_normalize_eq_none_iff]

theorem failure?_staleLayers_eq_none_iff (data layers : Table Json) :
    failure? (staleLayers data layers) = none ↔
      ∀ l ∈ layers, InRange ((Table.get? l.1 data).getD .null) ∧ InRange l.2 := by
  rw [staleLayers, failure?_bind_pure, failure?_filterM, List.findSome?_eq_none_iff]
  refine forall₂_congr fun l _ => ?_
  rw [failure?_bind_pure, failure?_agree_eq_none_iff]

theorem exists_compareThemeData_iff {text : String} {layers : Table Json} :
    (∃ findings, Expectation.compareThemeData layers text = .ok findings) ↔
      ComparesWith text layers := by
  rw [← failure?_eq_none_iff, Expectation.compareThemeData]
  constructor
  · intro h
    constructor
    · intro f digits hread hproblem
      rw [hread] at h
      simp [hproblem] at h
    · intro data hread
      rw [hread] at h
      rw [← failure?_staleLayers_eq_none_iff]
      exact (failure?_bind_pure _ _).symm.trans h
  · rintro ⟨hreadable, hinRange⟩
    split
    · rename_i f hread
      split
      · rename_i digits hproblem
        exact absurd hproblem (hreadable f digits hread)
      · rfl
    · rename_i data hread
      rw [failure?_bind_pure, failure?_staleLayers_eq_none_iff]
      exact hinRange data hread
    · rfl

end DesignTokens.Drift
