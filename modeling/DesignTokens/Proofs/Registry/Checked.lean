import DesignTokens.Proofs.Tables
import DesignTokens.Registry.Entry

/-!
When checks end with a value: the parts of a check have to end with one, item by item.
-/
namespace DesignTokens.Registry.Checked

variable {α β : Type}

theorem seq_eq_valid {f : Checked (α → β)} {x : Checked α} {b : β} :
    f <*> x = .valid b ↔ ∃ g a, f = .valid g ∧ x = .valid a ∧ g a = b := by
  constructor
  · intro h
    cases f with
    | invalid p ps => cases h
    | valid g =>
      cases x with
      | invalid p ps => cases h
      | valid a => exact ⟨g, a, rfl, rfl, by injection h⟩
  · rintro ⟨g, a, rfl, rfl, rfl⟩
    rfl

theorem map_eq_valid {f : α → β} {x : Checked α} {b : β} :
    f <$> x = .valid b ↔ ∃ a, x = .valid a ∧ f a = b := by
  have hseq : f <$> x = pure f <*> x := rfl
  rw [hseq, seq_eq_valid]
  constructor
  · rintro ⟨g, a, hg, hx, rfl⟩
    cases hg
    exact ⟨a, hx, rfl⟩
  · rintro ⟨a, hx, rfl⟩
    exact ⟨f, a, rfl, hx, rfl⟩

@[simp] theorem under_eq_valid {name : String} {x : Checked α} {a : α} :
    x.under name = .valid a ↔ x = .valid a := by
  cases x <;> simp [under]

theorem each_eq_valid {check : α → Checked β} {xs : List α} {ys : List β} :
    each check xs = .valid ys ↔ List.Forall₂ (fun x y => check x = .valid y) xs ys := by
  induction xs generalizing ys with
  | nil =>
    rw [List.forall₂_nil_left_iff, each]
    constructor
    · intro h
      injection h with h
      exact h.symm
    · rintro rfl
      rfl
  | cons x xs ih =>
    rw [each, seq_eq_valid, List.forall₂_cons_left_iff]
    constructor
    · rintro ⟨g, zs, hg, hzs, rfl⟩
      obtain ⟨y, hy, rfl⟩ := map_eq_valid.mp hg
      exact ⟨y, zs, hy, ih.mp hzs, rfl⟩
    · rintro ⟨y, zs, hy, hzs, rfl⟩
      exact ⟨List.cons y, zs, map_eq_valid.mpr ⟨y, hy, rfl⟩, ih.mpr hzs, rfl⟩

/-- A table is checked under the names that it has. -/
theorem tableOf_eq_valid {check : Json → Checked α} {v : Json} {t : Table α} :
    tableOf check v = .valid t ↔ ∃ fields, v = .obj fields ∧
      Table.Related (fun w a => check w = .valid a) fields t := by
  have hpair : ∀ (p : String × Json) (q : String × α),
      (Prod.mk p.1 <$> (check p.2).under p.1) = .valid q ↔ q.1 = p.1 ∧ check p.2 = .valid q.2 := by
    rintro ⟨k, w⟩ ⟨k', a⟩
    simp only [map_eq_valid, under_eq_valid, Prod.mk.injEq]
    constructor
    · rintro ⟨_, hw, rfl, rfl⟩
      exact ⟨rfl, hw⟩
    · rintro ⟨rfl, hw⟩
      exact ⟨a, hw, rfl, rfl⟩
  cases v with
  | obj fields =>
    simp only [tableOf, each_eq_valid, hpair, Json.obj.injEq, Table.Related]
    constructor
    · intro h
      exact ⟨fields, rfl, h⟩
    · rintro ⟨_, rfl, h⟩
      exact h
  | _ => simp [tableOf, fail]

theorem defaulted_eq_valid {name : String} {default a : α} {check : Json → Checked α}
    {fields : Table Json} (h : defaulted name default check fields = .valid a) :
    (Table.get? name fields = none ∧ a = default) ∨
      ∃ v, Table.get? name fields = some v ∧ check v = .valid a := by
  rw [defaulted] at h
  split at h
  · rename_i v hv
    exact .inr ⟨v, hv, under_eq_valid.mp h⟩
  · rename_i hv
    injection h with h
    exact .inl ⟨hv, h.symm⟩

section Fields

variable {check : Json → Checked α} {v : Json} {fields : Table Json} {name : String}

theorem text_eq_valid {s : String} : text v = .valid s ↔ v = .str s := by
  cases v <;> simp [text, fail, pure]

theorem axisValue_eq_valid {a : AxisValue} : axisValue v = .valid a ↔ v = a.toJson := by
  rw [axisValue]
  constructor
  · intro h
    split at h
    · rename_i b hb
      obtain rfl := valid.inj h
      exact (AxisValue.toJson_of_ofJson? hb).symm
    · cases h
  · rintro rfl
    rw [AxisValue.ofJson?_toJson]
    rfl

/-- The places of the items do not matter to their values. -/
theorem listOf_eq_valid {xs : List α} : listOf check v = .valid xs ↔
    ∃ items, v = .arr items ∧ List.Forall₂ (fun x a => check x = .valid a) items xs := by
  have hplaces : ∀ items : List Json,
      List.Forall₂ (fun (p : Json × Nat) a => check p.1 = .valid a) items.zipIdx xs ↔
        List.Forall₂ (fun x a => check x = .valid a) items xs := by
    intro items
    conv_rhs => rw [← List.zipIdx_map_fst 0 items]
    rw [List.forall₂_map_left_iff]
  cases v with
  | arr items =>
    simp only [listOf, each_eq_valid, List.forall₂_map_left_iff, under_eq_valid, hplaces,
      Json.arr.injEq, exists_eq_left']
  | _ => simp [listOf, fail]

/-- A field that may be null. -/
theorem nullable_eq_valid {o : Option α} :
    nullable [name] check fields = .valid o ↔
      ((Table.get? name fields = none ∨ Table.get? name fields = some .null) ∧ o = none) ∨
        ∃ v a, Table.get? name fields = some v ∧ v ≠ .null ∧ check v = .valid a ∧ o = some a := by
  have hfirst : [name].findSome? (fun name => (Table.get? name fields).map fun v => (name, v)) =
      (Table.get? name fields).map fun v => (name, v) := by
    rw [List.findSome?_singleton]
  rw [nullable, hfirst]
  cases hv : Table.get? name fields with
  | none => simp [pure, eq_comm]
  | some v =>
    cases v with
    | null => simp [pure, eq_comm]
    | _ => simp [map_eq_valid, eq_comm]

/-- A check that reads just what is written finds the value that a field holds. -/
theorem eq_some_iff_of_nullable {write : α → Json} {o : Option α}
    (hcheck : ∀ v a, check v = .valid a ↔ v = write a) (hnull : ∀ a, write a ≠ .null)
    (h : nullable [name] check fields = .valid o) (a : α) :
    o = some a ↔ Table.get? name fields = some (write a) := by
  rcases nullable_eq_valid.mp h with ⟨hnone | hnone, rfl⟩ | ⟨v, b, hv, -, hb, rfl⟩
  · simp [hnone]
  · simp [hnone, (hnull a).symm]
  · rw [hv, Option.some.injEq, Option.some.injEq, ← hcheck, hb, valid.injEq]

end Fields

/-! ### The first problem -/

variable {first : Problem} {more : List Problem}

/-- The first problem is the first one of the first item that has any. -/
theorem each_eq_invalid {check : α → Checked β} {xs : List α}
    (h : each check xs = .invalid first more) : ∃ before x after rest, xs = before ++ x :: after ∧
      check x = .invalid first rest ∧ ∀ y ∈ before, ∃ b, check y = .valid b := by
  induction xs with
  | nil => cases h
  | cons x xs ih =>
    rw [each] at h
    cases hx : check x with
    | invalid p ps =>
      rw [hx] at h
      obtain ⟨rfl, -⟩ := invalid.inj h
      exact ⟨[], x, xs, ps, rfl, hx, by simp⟩
    | valid b =>
      have htail : each check xs = .invalid first more := by
        rw [hx] at h
        cases hxs : each check xs with
        | valid bs =>
          rw [hxs] at h
          cases h
        | invalid p ps =>
          rw [hxs] at h
          exact h
      obtain ⟨before, y, after, rest, rfl, hy, hbefore⟩ := ih htail
      exact ⟨x :: before, y, after, rest, rfl, hy, List.forall_mem_cons.mpr ⟨⟨b, hx⟩, hbefore⟩⟩

theorem tableOf_eq_invalid {check : Json → Checked α} {fields : Table Json}
    (h : tableOf check (.obj fields) = .invalid first more) :
    ∃ before p after, fields = before ++ p :: after ∧ (∃ path, first.path = p.1 :: path) ∧
      (¬ ∃ a, check p.2 = .valid a) ∧ ∀ q ∈ before, ∃ a, check q.2 = .valid a := by
  obtain ⟨before, ⟨k, v⟩, after, rest, hfields, hv, hbefore⟩ := each_eq_invalid h
  change Prod.mk k <$> (check v).under k = _ at hv
  refine ⟨before, (k, v), after, hfields, ?_, ?_, ?_⟩
  · cases hcheck : check v with
    | valid a =>
      rw [hcheck] at hv
      cases hv
    | invalid q qs =>
      rw [hcheck] at hv
      obtain ⟨rfl, -⟩ := invalid.inj hv
      exact ⟨q.path, rfl⟩
  · rintro ⟨a, ha⟩
    change check v = _ at ha
    rw [ha] at hv
    cases hv
  · intro q hq
    obtain ⟨b, hb⟩ := hbefore q hq
    obtain ⟨a, ha, -⟩ := map_eq_valid.mp hb
    exact ⟨a, under_eq_valid.mp ha⟩

end DesignTokens.Registry.Checked
