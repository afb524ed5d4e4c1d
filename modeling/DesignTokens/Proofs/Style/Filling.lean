import DesignTokens.Matrix.Styling
import DesignTokens.Proofs.Style.Fields
import DesignTokens.Proofs.Tables

/-!
Styles that are filled from styling entries. A number of the entries gets into the field of its name
if the style has left it unset; nothing else about the style changes.
-/
namespace DesignTokens.Style

namespace Fillable

/-- The field that an entry fills. -/
def field : Fillable → Field
  | .size part => .size part
  | .radius => .radius .whole
  | .padding part => .padding part
  | .gap => .gap .whole
  | .fontSize => .fontSize
  | .strokeWeight => .strokeWeight
  | .opacity => .opacity

/-- Two names stand for two fields. -/
theorem name_unique {name other : String} {e : Fillable} (h : Table.get? name byName = some e)
    (h' : Table.get? other byName = some e) : name = other := by
  have hunique : ∀ p ∈ byName, ∀ q ∈ byName, p.2 = q.2 → p.1 = q.1 := by decide
  exact hunique _ (Table.mem_of_get? h) _ (Table.mem_of_get? h') rfl

end Fillable

variable {α : Type}

theorem get_set (v : α) (s : Style α) (e e' : Fillable) :
    (s.set v e).get e' = if e' = e then some v else s.get e' := by
  cases e with
  | size part =>
    cases e' with
    | size part' => simpa [get, set] using Sizes.get_set v s.sizes part part'
    | _ => rfl
  | padding part =>
    cases e' with
    | padding part' => simpa [get, set] using Box.get_set v s.padding part part'
    | _ => rfl
  | _ => cases e' <;> rfl

/-- A field that is set is the only one that changes. -/
theorem value_set (v : α) (s : Style α) {e : Fillable} {f : Field} (h : f ≠ e.field) :
    f.value (s.set v e) = f.value s := by
  cases e with
  | size part =>
    cases f with
    | size q =>
      have hq : q ≠ part := fun hq => h (congrArg _ hq)
      change (s.sizes.set v part).get q = s.sizes.get q
      simp [Sizes.get_set, hq]
    | _ => rfl
  | padding part =>
    cases f with
    | padding q =>
      have hq : q ≠ part := fun hq => h (congrArg _ hq)
      change (s.padding.set v part).get q = s.padding.get q
      simp [Box.get_set, hq]
    | _ => rfl
  | radius =>
    cases f with
    | radius q =>
      have hq : q ≠ .whole := fun hq => h (congrArg _ hq)
      change (s.radii.set v .whole).get q = s.radii.get q
      simp [Radii.get_set, hq]
    | _ => rfl
  | gap =>
    cases f with
    | gap q =>
      have hq : q ≠ .whole := fun hq => h (congrArg _ hq)
      change (s.gaps.set v .whole).get q = s.gaps.get q
      simp [Gaps.get_set, hq]
    | _ => rfl
  | fontSize | strokeWeight | opacity => cases f <;> first | rfl | exact absurd rfl h

theorem get_fill (v : α) (s : Style α) (e e' : Fillable) :
    (s.fill v e).get e' = if e' = e then s.get e' <|> some v else s.get e' := by
  rw [fill]
  split
  · rename_i hunset
    rw [get_set]
    split
    · rename_i hsame
      rw [hsame, Option.isNone_iff_eq_none.mp hunset]
      rfl
    · rfl
  · rename_i hset
    split
    · rename_i hsame
      obtain ⟨w, hw⟩ := Option.ne_none_iff_exists'.mp (mt Option.isNone_iff_eq_none.mpr hset)
      rw [hsame, hw]
      rfl
    · rfl

theorem value_fill (v : α) (s : Style α) {e : Fillable} {f : Field} (h : f ≠ e.field) :
    f.value (s.fill v e) = f.value s := by
  rw [fill]
  split
  · exact value_set v s h
  · rfl

/-- The number that stands under a name. -/
def numberUnder (styling : Table Json) (name : String) : Option Number :=
  match Table.get? name styling with
  | some (.num n) => some n
  | _ => none

/-- The second style is the first one with its unset fields filled from the numbers of an object. -/
structure Filled (styling : Table Json) (s t : Style Number) : Prop where
  filled : ∀ name e, Table.get? name Fillable.byName = some e →
    t.get e = (s.get e <|> numberUnder styling name)
  kept : ∀ f : Field, (∀ e : Fillable, f ≠ e.field) → f.value t = f.value s

/-- The style after one entry. -/
def fillOne (s : Style Number) (name : String) (v : Json) : Style Number :=
  match Table.get? name Fillable.byName, v with
  | some e, .num n => s.fill n e
  | _, _ => s

theorem fillFrom_cons (name : String) (v : Json) (styling : Table Json) (s : Style Number) :
    s.fillFrom ((name, v) :: styling) = (s.fillOne name v).fillFrom styling := rfl

theorem get_fillOne_self {name : String} {e : Fillable}
    (h : Table.get? name Fillable.byName = some e) (s : Style Number) (v : Json)
    (styling : Table Json) :
    (s.fillOne name v).get e = (s.get e <|> numberUnder ((name, v) :: styling) name) := by
  rw [numberUnder, Table.get?_cons, if_pos (beq_self_eq_true name)]
  cases v with
  | num n => simp [fillOne, h, get_fill]
  | _ => simp [fillOne, h]

theorem get_fillOne_of_ne {name other : String} {e : Fillable}
    (h : Table.get? name Fillable.byName = some e) (hne : other ≠ name) (s : Style Number)
    (v : Json) : (s.fillOne other v).get e = s.get e := by
  simp only [fillOne]
  split
  · rename_i e' n hother
    rw [get_fill, if_neg]
    rintro rfl
    exact hne (Fillable.name_unique hother h)
  · rfl

theorem value_fillOne {f : Field} (h : ∀ e : Fillable, f ≠ e.field) (s : Style Number)
    (name : String) (v : Json) : f.value (s.fillOne name v) = f.value s := by
  simp only [fillOne]
  split
  · exact value_fill _ s (h _)
  · rfl

/-- Without entries nothing changes. -/
theorem filled_nil (s : Style Number) : Filled [] s s where
  filled name e _ := by simp [numberUnder]
  kept _ _ := rfl

/-- Filling does what it says, where no name is repeated. -/
theorem filled_fillFrom {styling : Table Json} (hn : (Table.keys styling).Nodup)
    (s : Style Number) : Filled styling s (s.fillFrom styling) := by
  induction styling generalizing s with
  | nil => exact filled_nil s
  | cons p styling ih =>
    obtain ⟨key, v⟩ := p
    obtain ⟨hkey, hn⟩ := List.nodup_cons.mp hn
    have hrest := ih hn (s.fillOne key v)
    rw [fillFrom_cons]
    constructor
    · intro name e he
      rw [hrest.filled name e he]
      by_cases hsame : key = name
      · subst hsame
        have hlast : numberUnder styling key = none := by
          rw [numberUnder, Table.get?_eq_none_iff.mpr hkey]
        simp [get_fillOne_self he s v styling, hlast]
      · have hnumber : numberUnder ((key, v) :: styling) name = numberUnder styling name := by
          rw [numberUnder, numberUnder, Table.get?_cons, if_neg (by simpa using hsame)]
        rw [get_fillOne_of_ne he hsame, hnumber]
    · intro f hf
      rw [hrest.kept f hf, value_fillOne hf]

end DesignTokens.Style
