import DesignTokens.Proofs.Decimal.Compare
import DesignTokens.Proofs.Json.Names

/-!
Equality of values. A value equals itself if no object in it repeats a name and no number in it is a
NaN; numbers are compared by value, so that an integer equals its float.
-/
namespace DesignTokens.Json

/-- Every number in a value has a value of its own. -/
inductive NanFree : Json → Prop where
  | null : NanFree .null
  | bool (b : Bool) : NanFree (.bool b)
  | num {n : Number} (h : n.isValue) : NanFree (.num n)
  | str (s : String) : NanFree (.str s)
  | arr {items : List Json} (h : ∀ v ∈ items, NanFree v) : NanFree (.arr items)
  | obj {fields : Table Json} (h : ∀ p ∈ fields, NanFree p.2) : NanFree (.obj fields)

attribute [simp] NanFree.null NanFree.bool NanFree.str

@[simp] theorem nanFree_num_iff {n : Number} : NanFree (.num n) ↔ n.isValue := by
  constructor
  · intro h
    cases h with
    | num h => exact h
  · exact .num

@[simp] theorem nanFree_arr_iff {items : List Json} :
    NanFree (.arr items) ↔ ∀ v ∈ items, NanFree v := by
  constructor
  · intro h
    cases h with
    | arr h => exact h
  · exact .arr

@[simp] theorem nanFree_obj_iff {fields : Table Json} :
    NanFree (.obj fields) ↔ ∀ p ∈ fields, NanFree p.2 := by
  constructor
  · intro h
    cases h with
    | obj h => exact h
  · exact .obj

/-- Members that have their equals in another object. -/
theorem sameFields_of_get? {fs gs : Table Json}
    (h : ∀ p ∈ fs, ∃ y, Table.get? p.1 gs = some y ∧ same p.2 y) : sameFields fs gs := by
  induction fs with
  | nil => rfl
  | cons p fs ih =>
    obtain ⟨⟨y, hget, hy⟩, hfs⟩ := List.forall_mem_cons.mp h
    simp [sameFields, hget, hy, ih hfs]

theorem sameFields_iff {fs gs : Table Json} : sameFields fs gs ↔
    ∀ p ∈ fs, ∃ y, Table.get? p.1 gs = some y ∧ same p.2 y := by
  refine ⟨fun h => ?_, sameFields_of_get?⟩
  induction fs with
  | nil => simp
  | cons p fs ih =>
    rw [sameFields, Bool.and_eq_true] at h
    refine List.forall_mem_cons.mpr ⟨?_, ih h.2⟩
    cases hget : Table.get? p.1 gs with
    | none => simp [hget] at h
    | some y => exact ⟨y, rfl, by simpa [hget] using h.1⟩

/-- Objects are equal if under each name both have equal values, or neither has one. -/
theorem same_obj_iff {fs gs : Table Json} (hfs : (Table.keys fs).Nodup)
    (hgs : (Table.keys gs).Nodup) : same (.obj fs) (.obj gs) ↔
      ∀ key, Option.Rel (fun x y => same x y) (Table.get? key fs) (Table.get? key gs) := by
  have hlength : ∀ t : Table Json, t.length = (Table.keys t).length :=
    fun t => (List.length_map _).symm
  rw [same, Bool.and_eq_true, beq_iff_eq, sameFields_iff, hlength, hlength]
  constructor
  · rintro ⟨hsize, hfields⟩
    have hsub : Table.keys fs ⊆ Table.keys gs := by
      intro key hkey
      obtain ⟨p, hp, rfl⟩ := List.mem_map.mp hkey
      obtain ⟨y, hy, -⟩ := hfields p hp
      exact List.mem_map.mpr ⟨_, Table.mem_of_get? hy, rfl⟩
    have hperm := (List.subperm_of_subset hfs hsub).perm_of_length_le hsize.ge
    intro key
    cases hx : Table.get? key fs with
    | some x =>
      obtain ⟨y, hy, hsame⟩ := hfields _ (Table.mem_of_get? hx)
      exact hy ▸ .some hsame
    | none =>
      rw [Table.get?_eq_none_iff, hperm.mem_iff, ← Table.get?_eq_none_iff] at hx
      rw [hx]
      exact .none
  · intro h
    have hkeys : ∀ key, key ∈ Table.keys fs ↔ key ∈ Table.keys gs := by
      intro key
      rw [← not_iff_not, ← Table.get?_eq_none_iff, ← Table.get?_eq_none_iff]
      generalize Table.get? key fs = x, Table.get? key gs = y, h key = hkey
      cases hkey <;> simp
    refine ⟨((List.perm_ext_iff_of_nodup hfs hgs).mpr hkeys).length_eq, fun p hp => ?_⟩
    have hp' := h p.1
    rw [Table.get?_of_mem hfs hp] at hp'
    generalize Table.get? p.1 gs = y at hp' ⊢
    cases hp' with
    | some hsame => exact ⟨_, rfl, hsame⟩

/-- Two objects with the same names in one order and with equal values. -/
theorem same_of_forall₂ {fs gs : Table Json} (hn : (Table.keys gs).Nodup)
    (h : List.Forall₂ (fun p q => p.1 = q.1 ∧ same p.2 q.2) fs gs) :
    same (.obj fs) (.obj gs) := by
  rw [same, beq_iff_eq.mpr h.length_eq, Bool.true_and]
  refine sameFields_of_get? fun p hp => ?_
  obtain ⟨q, hq, hname, hsame⟩ := exists_right_of_forall₂ h hp
  exact ⟨q.2, hname ▸ Table.get?_of_mem hn hq, hsame⟩

theorem same_str_iff (a b : String) : same (.str a) (.str b) ↔ a = b := by
  rw [same, beq_iff_eq]

theorem same_int_iff (m n : Int) : same (.num (.int m)) (.num (.int n)) ↔ m = n := by
  change (some (compare m n) == some Ordering.eq) = true ↔ m = n
  simp

theorem sameItems_map_iff {α : Type} {write : α → Json}
    (h : ∀ a b, same (write a) (write b) ↔ a = b) (xs ys : List α) :
    sameItems (xs.map write) (ys.map write) ↔ xs = ys := by
  induction xs generalizing ys with
  | nil => cases ys <;> simp [sameItems]
  | cons x xs ih => cases ys <;> simp [sameItems, h, ih]

mutual

theorem same_self : (v : Json) → v.NamesOnce → v.NanFree → v.same v
  | .null, _, _ => rfl
  | .bool b, _, _ => by cases b <;> decide
  | .num n, _, h => Number.beq_self (nanFree_num_iff.mp h)
  | .str s, _, _ => by simp [same]
  | .arr items, hn, h => by
    rw [same]
    exact sameItems_self items (namesOnce_arr_iff.mp hn) (nanFree_arr_iff.mp h)
  | .obj fields, hn, h => by
    obtain ⟨hkeys, hfields⟩ := namesOnce_obj_iff.mp hn
    refine same_of_forall₂ hkeys (List.forall₂_same.mpr fun p hp => ⟨rfl, ?_⟩)
    exact same_self_of_mem fields hfields (nanFree_obj_iff.mp h) p hp

theorem sameItems_self : (items : List Json) → (∀ v ∈ items, v.NamesOnce) →
    (∀ v ∈ items, v.NanFree) → sameItems items items
  | [], _, _ => rfl
  | x :: xs, hn, h => by
    obtain ⟨hnx, hnxs⟩ := List.forall_mem_cons.mp hn
    obtain ⟨hx, hxs⟩ := List.forall_mem_cons.mp h
    rw [sameItems, same_self x hnx hx, sameItems_self xs hnxs hxs]
    rfl

theorem same_self_of_mem : (fields : Table Json) → (∀ p ∈ fields, NamesOnce p.2) →
    (∀ p ∈ fields, NanFree p.2) → ∀ p ∈ fields, same p.2 p.2
  | [], _, _ => by simp
  | (k, x) :: fields, hn, h => by
    obtain ⟨hnx, hnfields⟩ := List.forall_mem_cons.mp hn
    obtain ⟨hx, hfields⟩ := List.forall_mem_cons.mp h
    exact List.forall_mem_cons.mpr
      ⟨same_self x hnx hx, same_self_of_mem fields hnfields hfields⟩

end

end DesignTokens.Json
