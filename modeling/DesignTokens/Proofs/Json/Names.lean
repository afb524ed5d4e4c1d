import DesignTokens.Json.Reader
import DesignTokens.Proofs.Results
import DesignTokens.Proofs.Tables

/-!
Values in which no object repeats a name. Every value that is read from a text is one of them.
-/
namespace DesignTokens.Json

/-- No object in a value repeats a name. -/
inductive NamesOnce : Json → Prop where
  | null : NamesOnce .null
  | bool (b : Bool) : NamesOnce (.bool b)
  | num (n : Number) : NamesOnce (.num n)
  | str (s : String) : NamesOnce (.str s)
  | arr {items : List Json} (h : ∀ v ∈ items, NamesOnce v) : NamesOnce (.arr items)
  | obj {fields : Table Json} (hn : (Table.keys fields).Nodup)
      (h : ∀ p ∈ fields, NamesOnce p.2) : NamesOnce (.obj fields)

attribute [simp] NamesOnce.null NamesOnce.bool NamesOnce.num NamesOnce.str

@[simp] theorem namesOnce_arr_iff {items : List Json} :
    NamesOnce (.arr items) ↔ ∀ v ∈ items, NamesOnce v := by
  constructor
  · intro h
    cases h with
    | arr h => exact h
  · exact .arr

@[simp] theorem namesOnce_obj_iff {fields : Table Json} :
    NamesOnce (.obj fields) ↔ (Table.keys fields).Nodup ∧ ∀ p ∈ fields, NamesOnce p.2 := by
  constructor
  · intro h
    cases h with
    | obj hn h => exact ⟨hn, h⟩
  · rintro ⟨hn, h⟩
    exact .obj hn h

/-- What the members that an object has so far satisfy. -/
def FieldsOnce (fields : Table Json) : Prop :=
  (Table.keys fields).Nodup ∧ ∀ p ∈ fields, NamesOnce p.2

theorem fieldsOnce_nil : FieldsOnce [] := ⟨List.nodup_nil, by simp⟩

theorem NamesOnce.fields {fields : Table Json} (h : NamesOnce (.obj fields)) :
    FieldsOnce fields :=
  namesOnce_obj_iff.mp h

theorem FieldsOnce.get? {fields : Table Json} (h : FieldsOnce fields) {name : String} {v : Json}
    (hv : Table.get? name fields = some v) : v.NamesOnce :=
  h.2 _ (Table.mem_of_get? hv)

theorem FieldsOnce.put {fields : Table Json} (h : FieldsOnce fields) (name : String) {v : Json}
    (hv : v.NamesOnce) : FieldsOnce (Table.put name v fields) := by
  refine ⟨Table.nodup_keys_put name v h.1, ?_⟩
  intro p hp
  rcases Table.mem_put hp with rfl | hp
  · exact hv
  · exact h.2 p hp

theorem namesOnce_of_literal? {c c' : Cursor} {v : Json} (h : literal? c = some (v, c')) :
    v.NamesOnce := by
  obtain ⟨⟨name, w⟩, hmem, hw⟩ := List.exists_of_findSome?_eq_some h
  dsimp only at hw
  split at hw
  · obtain ⟨rfl, -⟩ := Prod.mk.inj (Option.some.inj hw)
    simp only [literals, List.mem_cons, Prod.mk.injEq, List.not_mem_nil, or_false] at hmem
    rcases hmem with ⟨-, rfl⟩ | ⟨-, rfl⟩ | ⟨-, rfl⟩ | ⟨-, rfl⟩ | ⟨-, rfl⟩ | ⟨-, rfl⟩
    · exact .null
    · exact .bool true
    · exact .bool false
    all_goals exact .num _
  · cases hw

theorem namesOnce_of_readNumber {c c' : Cursor} {v : Json} (h : readNumber c = .ok (v, c')) :
    v.NamesOnce := by
  rw [readNumber] at h
  dsimp only [Cursor.fail] at h
  split at h
  all_goals
    split at h
    · cases h
    · split at h <;> split at h <;> cases h <;> exact .num _

/-- Reading yields values of which no object repeats a name, from members and items that do not. -/
structure Reads (fuel : Nat) : Prop where
  value : ∀ {c c' : Cursor} {v : Json}, readValue fuel c = .ok (v, c') → v.NamesOnce
  fields : ∀ {fields : Table Json} {c c' : Cursor} {v : Json}, FieldsOnce fields →
    readFields fuel fields c = .ok (v, c') → v.NamesOnce
  items : ∀ {items : List Json} {c c' : Cursor} {v : Json}, (∀ w ∈ items, w.NamesOnce) →
    readItems fuel items c = .ok (v, c') → v.NamesOnce

theorem reads_zero : Reads 0 where
  value h := by cases h
  fields _ h := by cases h
  items _ h := by cases h

theorem reads_succ {fuel : Nat} (ih : Reads fuel) : Reads (fuel + 1) where
  value := by
    intro c c' v h
    rw [readValue] at h
    split at h
    · obtain ⟨⟨s, c₁⟩, -, h⟩ := bind_eq_ok h
      cases h
      exact .str _
    · dsimp only at h
      split at h
      · cases h
        exact .obj fieldsOnce_nil.1 fieldsOnce_nil.2
      · exact ih.fields fieldsOnce_nil h
    · dsimp only at h
      split at h
      · cases h
        exact .arr (by simp)
      · exact ih.items (by simp) h
    · split at h
      · rename_i hlit
        cases h
        exact namesOnce_of_literal? hlit
      · exact namesOnce_of_readNumber h
  fields := by
    intro fields c c' v hfields h
    rw [readFields] at h
    split at h
    · obtain ⟨⟨name, c₁⟩, -, h⟩ := bind_eq_ok h
      dsimp only at h
      split at h
      · obtain ⟨⟨w, c₂⟩, hw, h⟩ := bind_eq_ok h
        have hput := hfields.put (String.ofList name) (ih.value hw)
        dsimp only at h
        split at h
        · cases h
          exact .obj hput.1 hput.2
        · exact ih.fields hput h
        · cases h
      · cases h
    · cases h
  items := by
    intro items c c' v hitems h
    rw [readItems] at h
    obtain ⟨⟨w, c₁⟩, hw, h⟩ := bind_eq_ok h
    have hall : ∀ u ∈ w :: items, u.NamesOnce := List.forall_mem_cons.mpr ⟨ih.value hw, hitems⟩
    dsimp only at h
    split at h
    · cases h
      exact .arr fun u hu => hall u (List.mem_reverse.mp hu)
    · exact ih.items hall h
    · cases h

theorem reads (fuel : Nat) : Reads fuel := by
  induction fuel with
  | zero => exact reads_zero
  | succ fuel ih => exact reads_succ ih

theorem namesOnce_of_readChars {cs : List Char} {v : Json} (h : readChars cs = .ok v) :
    v.NamesOnce := by
  obtain ⟨⟨w, c⟩, hw, h⟩ := bind_eq_ok h
  dsimp only at h
  split at h
  · cases h
    exact (reads _).value hw
  · cases h

theorem namesOnce_of_read {s : String} {v : Json} (h : read s = .ok v) : v.NamesOnce := by
  rw [read] at h
  split at h
  · cases h
  · exact namesOnce_of_readChars h

end DesignTokens.Json
