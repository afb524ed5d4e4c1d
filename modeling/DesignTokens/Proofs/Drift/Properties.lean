import DesignTokens.Proofs.Drift.ExpectedMap
import DesignTokens.Proofs.Style.Serialized
import DesignTokens.Proofs.Text.Casing

/-!
Properties of styles under their two names. A field has a name of small words with underscores, and
stands in serialized styles under the camel case of it. A rule for a map names its property in camel
case: what it expects are the numbers that stand under this very name in the serialized styles.
-/
namespace DesignTokens

open Text (camelCase snakeCase IsSnakeName)

namespace Style

/-! ### The names of fields -/

namespace Field

theorem isSnakeName_name (f : Field) : IsSnakeName f.name := by
  have hall : ∀ f ∈ all, IsSnakeName f.name := by decide +kernel
  exact hall f f.mem_all

theorem snakeCase_key (f : Field) : snakeCase f.key = f.name :=
  Text.snakeCase_camelCase f.isSnakeName_name

theorem nodup_names : (all.map name).Nodup := by
  have hkeys : ((all.map name).map camelCase).Nodup := by
    rw [List.map_map]
    exact nodup_keys
  exact hkeys.of_map camelCase

theorem name_injective : Function.Injective name := fun f g h =>
  List.inj_on_of_nodup_map nodup_names f.mem_all g.mem_all h

end Field

variable (s : Style Number)

/-! ### Numbers under the names of fields -/

/-- The fields under their names, set or not: those that hold numbers, and the others. -/
def named : Table (Option Json) := Table.mapValues (Option.map Json.num) s.numbers ++ s.others

theorem named_eq : s.named = Field.all.map fun f => (f.name, f.data? (f.value s)) := rfl

theorem keys_named : Table.keys s.named = Field.all.map Field.name := by
  rw [named_eq, Table.keys, List.map_map]
  rfl

theorem get?_named_name (f : Field) : Table.get? f.name s.named = some (f.data? (f.value s)) := by
  refine Table.get?_of_mem (s.keys_named ▸ Field.nodup_names) ?_
  rw [named_eq]
  exact List.mem_map_of_mem f.mem_all

theorem get?_named (name : String) : Table.get? name s.named =
    ((Table.get? name s.numbers).map (Option.map Json.num)).or (Table.get? name s.others) := by
  rw [named, Table.get?_append, Table.get?_mapValues]

theorem flag_ne_num (b : Bool) (x : Number) : flag b ≠ some (.num x) := by
  cases b <;> simp [flag]

theorem others_ne_num {p : String × Option Json} (h : p ∈ s.others) (x : Number) :
    p.2 ≠ some (.num x) := by
  revert p
  simp [others, flag_ne_num, Json.ofStrings]

/-- The number of a field is the one in its data. -/
theorem number?_name_eq_some (f : Field) (x : Number) :
    s.number? f.name = some x ↔ f.data? (f.value s) = some (.num x) := by
  have hget := s.get?_named f.name
  rw [get?_named_name] at hget
  rw [number?]
  cases hnumber : Table.get? f.name s.numbers with
  | some v =>
    rw [hnumber] at hget
    have hdata : f.data? (f.value s) = v.map Json.num := Option.some.inj hget
    rw [hdata]
    cases v <;> simp
  | none =>
    rw [hnumber] at hget
    have hother := s.others_ne_num (Table.mem_of_get? hget.symm) x
    simpa using hother

theorem number?_eq_none {name : String} (h : ∀ f : Field, f.name ≠ name) :
    s.number? name = none := by
  have hnone : Table.get? name s.named = none := by
    rw [Table.get?_eq_none_iff, keys_named, List.mem_map]
    rintro ⟨f, -, hf⟩
    exact h f hf
  rw [get?_named, Option.or_eq_none_iff, Option.map_eq_none_iff] at hnone
  rw [number?, hnone.1]
  rfl

end Style

namespace Appearance

/-- The number that the data have under a property; no truth value is one. -/
def rendered? (a : Appearance Number) (property : String) : Option Number :=
  match Table.get? property a.fields with
  | some (.num n) => some n
  | _ => none

variable (a : Appearance Number)

theorem rendered?_eq_some (property : String) (x : Number) :
    a.rendered? property = some x ↔ Table.get? property a.fields = some (.num x) := by
  rw [rendered?]
  split
  · rename_i n hn
    rw [hn, Option.some.injEq, Option.some.injEq, Json.num.injEq]
  · rename_i hn
    refine ⟨fun h => ?_, fun h => absurd h (hn x)⟩
    cases h

theorem statesData?_ne_num (x : Number) : a.statesData? ≠ some (.num x) := by
  rw [statesData?]
  split <;> simp

/-- A name addresses the number that stands in the data under its camel case, whether it is the name
of a field or not. -/
theorem number?_eq_rendered? {name : String} (h : IsSnakeName name) :
    a.base.number? name = a.rendered? (camelCase name) := by
  have hinj : Set.InjOn camelCase {name | IsSnakeName name} := Text.leftInvOn_camelCase.injOn
  refine Option.ext fun x => ?_
  rw [rendered?_eq_some]
  by_cases hfield : ∃ f : Style.Field, f.name = name
  · obtain ⟨f, rfl⟩ := hfield
    rw [a.base.number?_name_eq_some]
    exact Eq.congr_left (a.get?_fields f).symm
  · -- the camel case of a name that is no field's can still be that of the states
    have hname := not_exists.mp hfield
    have hkey : ∀ f : Style.Field, f.key ≠ camelCase name :=
      fun f heq => hname f (hinj f.isSnakeName_name h heq)
    rw [a.base.number?_eq_none hname]
    by_cases hstates : camelCase name = "states"
    · rw [hstates, a.get?_fields_states]
      simp [a.statesData?_ne_num]
    · rw [a.get?_fields_eq_none hkey hstates]
      simp

end Appearance

namespace Drift

/-! ### Rules for maps -/

/-- The numbers that an axis gives to a property of the serialized style. -/
def renderedMap (scales : Theme.Scales) (settings : Utility.Settings) (a : VariantAxis)
    (property : String) : Table Float :=
  Table.ofPairs (a.keys.filterMap fun key => do
    let classes ← a.classFor? key
    let n ← (Utility.parse scales settings classes).appearance.rendered? property
    return (key, ← n.toFloat?))

theorem expectedMap_eq_renderedMap (scales : Theme.Scales) (settings : Utility.Settings)
    (a : VariantAxis) {name : String} (h : IsSnakeName name) :
    expectedMap scales settings a name = renderedMap scales settings a (camelCase name) := by
  simp only [expectedMap, renderedMap, Appearance.number?_eq_rendered? _ h]

/-- Names of small words are got back from their camel case, so no two of them have the same one. A
property in camel case is that of one field, and addresses the number in the data of this field. A
rule for a map with such a property is built just if the rest of its entry can be read, and expects
what stands under the property in the data of the class strings of its axis. -/
theorem properties_addressed :
    (∀ words : List String, words ≠ [] → (∀ w ∈ words, Text.IsSmallWord w) →
      snakeCase (camelCase (String.intercalate "_" words)) = String.intercalate "_" words) ∧
    Set.InjOn camelCase {name | IsSnakeName name} ∧
    (∀ f g : Style.Field, snakeCase f.key = g.name ↔ f = g) ∧
    (∀ (s : Style Number) (f : Style.Field) (x : Number),
      s.number? (snakeCase f.key) = some x ↔ f.data? (f.value s) = some (.num x)) ∧
    ∀ (c : Config) (s : Theme.Snapshot) (registry : Registry) (e : Config.SyncEntry) (r : SyncRule)
      (name : String), IsSnakeName name → e.styleProperty = .str (camelCase name) →
      (mapRule c s registry e = .ok r ↔ ∃ m, MapEntry.Reads c registry e m ∧
        r = m.rule (renderedMap s.computed m.settings m.axis m.property)) := by
  refine ⟨fun words hne hwords => Text.snakeCase_camelCase ⟨words, hne, hwords, rfl⟩,
    Text.leftInvOn_camelCase.injOn, fun f g => ?_, fun s f x => ?_, ?_⟩
  · rw [f.snakeCase_key, Style.Field.name_injective.eq_iff]
  · rw [f.snakeCase_key, s.number?_name_eq_some]
  · intro c s registry e r name hname he
    rw [mapRule_eq_ok_iff]
    refine exists_congr fun m => and_congr_right fun hm => ?_
    have hproperty : camelCase name = m.property := Except.ok.inj (he ▸ hm.property)
    rw [← hproperty, Text.snakeCase_camelCase hname, expectedMap_eq_renderedMap _ _ _ hname]

/-- A component with two least heights; one of its values has none. -/
def shelf : Component where
  name := "Shelf"
  description := ""
  category := ""
  axes := [⟨"size", [.text "lg", .text "sm", .text "free"],
    [("lg", "min-h-[36px] h-9"), ("sm", "min-h-[26.5px]"), ("free", "h-9")],
    [("lg", ""), ("sm", ""), ("free", "")], .text "sm", "enum"⟩]
  colors := []
  baseClasses := none
  subComponents := []
  styling := []
  otherProps := []

def shelfRegistry : Registry := ⟨[("Shelf", shelf)], ""⟩

def shelfEntry : Config.SyncEntry :=
  { chipEntry with component := "Shelf", styleProperty := "minHeight" }

/-- Words of one letter, and the rule of an entry for a name of two words. -/
theorem properties_addressed_shelf :
    snakeCase (camelCase (String.intercalate "_" ["a", "b", "c"])) =
      String.intercalate "_" ["a", "b", "c"] ∧
    ∃ r, mapRule chipConfig ⟨.plain, .plain, []⟩ shelfRegistry shelfEntry = .ok r ∧
      r.expectation = .map "HEIGHTS" [("lg", 36), ("sm", 26.5)] "Shelf.size minHeight" := by
  obtain ⟨hback, -, -, -, hrule⟩ := properties_addressed
  have hreads : MapEntry.Reads chipConfig shelfRegistry shelfEntry
      ⟨shelf, shelf.axes.head (by decide), "minHeight", {}, ⟨.root, ["gen.py"]⟩, "HEIGHTS"⟩ :=
    { complete := rfl
      component := ⟨"Shelf", rfl, rfl⟩
      axis := rfl
      property := rfl
      settings := rfl
      target := rfl
      name := rfl }
  have hmap : renderedMap .plain {} (shelf.axes.head (by decide)) "minHeight" =
      [("lg", 36), ("sm", 26.5)] := by decide +kernel
  exact ⟨hback _ (by decide) (by decide), _,
    (hrule _ _ _ _ _ "min_height" (by decide) rfl).mpr ⟨_, hreads, rfl⟩,
    congrArg₂ (Expectation.map "HEIGHTS") hmap rfl⟩

end Drift

end DesignTokens
