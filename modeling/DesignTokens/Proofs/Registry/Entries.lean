import DesignTokens.Proofs.Json.Names
import DesignTokens.Proofs.Registry.Checked
import Mathlib.Data.List.Nodup

/-!
Valid entries. A valid component entry is made of the fields of an object, and each of its props that
declares values has values, a default and tables that fit each other.
-/
namespace DesignTokens

namespace Text

theorem mem_sortedDistinct {x : String} {xs : List String} : x ∈ sortedDistinct xs ↔ x ∈ xs := by
  rw [sortedDistinct, sorted, List.mem_mergeSort, mem_distinct]

theorem sortedDistinct_eq_nil_iff {xs : List String} : sortedDistinct xs = [] ↔ xs = [] := by
  simp only [List.eq_nil_iff_forall_not_mem, mem_sortedDistinct]

theorem repeated_eq_nil_iff {xs : List String} : repeated xs = [] ↔ xs.Nodup := by
  rw [repeated, sortedDistinct_eq_nil_iff, List.filter_eq_nil_iff, List.nodup_iff_count_le_one]
  constructor
  · intro h x
    by_cases hx : x ∈ xs
    · simpa using h x hx
    · simp [List.count_eq_zero_of_not_mem hx]
  · intro h x _
    simpa using h x

end Text

namespace Registry

/-- The parts of a prop fit each other. -/
structure PropEntry.Fits (p : PropEntry) (values : List AxisValue) : Prop where
  ne_nil : values ≠ []
  keys : (values.map AxisValue.key).Nodup
  default : ∃ d, p.default = some d ∧ d.key ∈ values.map AxisValue.key
  classes : ∀ k, k ∈ Table.keys (p.classes.getD []) ↔ k ∈ values.map AxisValue.key
  descriptions : ∀ k, k ∈ Table.keys (p.descriptions.getD []) ↔ k ∈ values.map AxisValue.key

theorem PropEntry.tableFault?_eq_none_iff {keys : List String} {table : AxisTable}
    {entries : Option (Table String)} :
    tableFault? keys table entries = none ↔ ∀ k, k ∈ Table.keys (entries.getD []) ↔ k ∈ keys := by
  have hnone : tableFault? keys table entries = none ↔
      (∀ k ∈ keys, k ∈ Table.keys (entries.getD [])) ∧
        ∀ n ∈ Table.keys (entries.getD []), n ∈ keys := by
    simp only [tableFault?]
    split
    · rename_i hlacking
      have hex : ∃ k ∈ keys, k ∉ Table.keys (entries.getD []) := by simpa using hlacking
      obtain ⟨k, hk, hno⟩ := hex
      constructor
      · intro h
        cases h
      · rintro ⟨h, -⟩
        exact absurd (h k hk) hno
    · split <;> simp_all [Text.sortedDistinct_eq_nil_iff]
  rw [hnone]
  constructor
  · rintro ⟨hk, hn⟩ k
    exact ⟨hn k, hk k⟩
  · intro h
    exact ⟨fun k => (h k).mpr, fun n => (h n).mp⟩

theorem PropEntry.axisFault?_eq_none_iff {p : PropEntry} {values : List AxisValue} :
    p.axisFault? values = none ↔ p.Fits values := by
  have hiff : p.axisFault? values = none ↔ values ≠ [] ∧ (values.map AxisValue.key).Nodup ∧
      ∃ d, p.default = some d ∧ d.key ∈ values.map AxisValue.key ∧
        tableFault? (values.map AxisValue.key) .classes p.classes = none ∧
        tableFault? (values.map AxisValue.key) .descriptions p.descriptions = none := by
    rw [← Text.repeated_eq_nil_iff]
    simp only [axisFault?]
    split
    · simp_all
    · split
      · simp_all
      · cases hd : p.default with
        | none => simp
        | some d =>
          simp only [Option.some.injEq, exists_eq_left']
          split <;> simp_all
  rw [hiff]
  constructor
  · rintro ⟨hne, hkeys, d, hd, hmem, hc, hdesc⟩
    exact ⟨hne, hkeys, ⟨d, hd, hmem⟩, tableFault?_eq_none_iff.mp hc,
      tableFault?_eq_none_iff.mp hdesc⟩
  · rintro ⟨hne, hkeys, ⟨d, hd, hmem⟩, hc, hdesc⟩
    exact ⟨hne, hkeys, d, hd, hmem, tableFault?_eq_none_iff.mpr hc,
      tableFault?_eq_none_iff.mpr hdesc⟩

theorem PropEntry.ofJson_eq_valid {v : Json} {p : PropEntry} :
    PropEntry.ofJson v = .valid p ↔
      ∃ fields, v = .obj fields ∧ PropEntry.ofFields fields = .valid p ∧ p.fault? = none := by
  cases v with
  | obj fields =>
    rw [PropEntry.ofJson]
    constructor
    · intro h
      split at h
      · rename_i hfields
        split at h
        · cases h
        · rename_i hfault
          cases h
          exact ⟨fields, rfl, hfields, hfault⟩
      · cases h
    · rintro ⟨_, hobj, hfields, hfault⟩
      obtain rfl := Json.obj.inj hobj
      simp only [hfields, hfault]
  | _ => simp [PropEntry.ofJson, Checked.fail]

/-- The parts of a prop entry are checked fields of an object, and what else it has. -/
structure PropEntry.ReadFrom (p : PropEntry) (fields : Table Json) : Prop where
  type : Checked.nullable ["type"] Checked.text fields = .valid p.type
  values : Checked.nullable ["values"] (Checked.listOf Checked.axisValue) fields = .valid p.values
  classes : Checked.nullable ["classes"] (Checked.tableOf Checked.text) fields = .valid p.classes
  descriptions : Checked.nullable ["descriptions"] (Checked.tableOf Checked.text) fields =
    .valid p.descriptions
  default : Checked.nullable ["default"] Checked.axisValue fields = .valid p.default
  description : Checked.nullable ["description"] Checked.text fields = .valid p.description
  isOptional : Checked.defaulted "optional" false Checked.flag fields = .valid p.isOptional
  extras : fields.filter (fun f => !fieldNames.contains f.1) = p.extras

theorem PropEntry.ofFields_eq_valid {fields : Table Json} {p : PropEntry} :
    PropEntry.ofFields fields = .valid p ↔ p.ReadFrom fields := by
  rw [PropEntry.ofFields]
  constructor
  · intro h
    obtain ⟨_, _, h₁, hextras, rfl⟩ := Checked.seq_eq_valid.mp h
    obtain ⟨_, _, h₂, hoptional, rfl⟩ := Checked.seq_eq_valid.mp h₁
    obtain ⟨_, _, h₃, hdescription, rfl⟩ := Checked.seq_eq_valid.mp h₂
    obtain ⟨_, _, h₄, hdefault, rfl⟩ := Checked.seq_eq_valid.mp h₃
    obtain ⟨_, _, h₅, hdescriptions, rfl⟩ := Checked.seq_eq_valid.mp h₄
    obtain ⟨_, _, h₆, hclasses, rfl⟩ := Checked.seq_eq_valid.mp h₅
    obtain ⟨_, _, h₇, hvalues, rfl⟩ := Checked.seq_eq_valid.mp h₆
    obtain ⟨_, htype, rfl⟩ := Checked.map_eq_valid.mp h₇
    obtain rfl := Checked.valid.inj hextras
    exact ⟨htype, hvalues, hclasses, hdescriptions, hdefault, hdescription, hoptional, rfl⟩
  · intro h
    rw [h.type, h.values, h.classes, h.descriptions, h.default, h.description, h.isOptional]
    exact congrArg (fun extras => Checked.valid { p with extras }) h.extras

/-- The parts of a component entry are checked fields of an object. -/
structure ComponentEntry.ReadFrom (e : ComponentEntry) (fields : Table Json) : Prop where
  name : Checked.nullable ["name"] Checked.text fields = .valid e.name
  description : Checked.required "description" Checked.text fields = .valid e.description
  category : Checked.required "category" Checked.text fields = .valid e.category
  props : Checked.defaulted "props" [] (Checked.tableOf PropEntry.ofJson) fields = .valid e.props
  colors : Checked.defaulted "colors" [] (Checked.listOf Checked.text) fields = .valid e.colors
  baseClasses : Checked.nullable baseClassNames Checked.text fields = .valid e.baseClasses
  subComponents : Checked.nullable ["subComponents", "sub_components"]
    (Checked.tableOf SubComponentEntry.ofJson) fields = .valid e.subComponents
  styling : Checked.nullable ["styling"] Checked.object fields = .valid e.styling

theorem ComponentEntry.ofJson_eq_valid {v : Json} {e : ComponentEntry} :
    ComponentEntry.ofJson v = .valid e ↔ ∃ fields, v = .obj fields ∧ e.ReadFrom fields := by
  cases v with
  | obj fields =>
    rw [ComponentEntry.ofJson]
    constructor
    · intro h
      obtain ⟨_, _, h₁, hstyling, rfl⟩ := Checked.seq_eq_valid.mp h
      obtain ⟨_, _, h₂, hsub, rfl⟩ := Checked.seq_eq_valid.mp h₁
      obtain ⟨_, _, h₃, hbase, rfl⟩ := Checked.seq_eq_valid.mp h₂
      obtain ⟨_, _, h₄, hcolors, rfl⟩ := Checked.seq_eq_valid.mp h₃
      obtain ⟨_, _, h₅, hprops, rfl⟩ := Checked.seq_eq_valid.mp h₄
      obtain ⟨_, _, h₆, hcategory, rfl⟩ := Checked.seq_eq_valid.mp h₅
      obtain ⟨_, _, h₇, hdescription, rfl⟩ := Checked.seq_eq_valid.mp h₆
      obtain ⟨_, hname, rfl⟩ := Checked.map_eq_valid.mp h₇
      exact ⟨fields, rfl, hname, hdescription, hcategory, hprops, hcolors, hbase, hsub, hstyling⟩
    · rintro ⟨_, hfields, h⟩
      obtain rfl := Json.obj.inj hfields
      rw [h.name, h.description, h.category, h.props, h.colors, h.baseClasses, h.subComponents,
        h.styling]
      rfl
  | _ => simp [ComponentEntry.ofJson, Checked.fail]

end Registry

end DesignTokens
