import DesignTokens.Drift.Sync
import DesignTokens.Proofs.Drift.Assigned

/-!
Maps that have drifted. Where a source text assigns a written map to a name, its comparison with what
is expected tells whether the two agree, and if they do not, which keys are missing, differ or are
not expected.
-/
namespace DesignTokens.Drift

/-! ### Problems -/

/-- What is wrong with one key of a map. -/
inductive Problem where
  | missing (key : String) (expected : Float)
  | differs (key : String) (actual expected : Float)
  | unexpected (key : String)

namespace Problem

def key : Problem → String
  | .missing key _ | .differs key _ _ | .unexpected key => key

def text : Problem → String
  | .missing key e => "missing " ++ key ++ " (expected " ++ Decimal.generalText e ++ ")"
  | .differs key a e =>
    key ++ " = " ++ Decimal.generalText a ++ ", expected " ++ Decimal.generalText e
  | .unexpected key => "unexpected key " ++ key

/-- What it takes for the problem to be there. -/
def Holds (actual expected : Table Float) : Problem → Prop
  | .missing key e => Table.get? key expected = some e ∧ Table.get? key actual = none
  | .differs key a e =>
    Table.get? key expected = some e ∧ Table.get? key actual = some a ∧ close a e = false
  | .unexpected key => key ∈ Table.keys actual ∧ key ∉ Table.keys expected

end Problem

variable (actual expected : Table Float)

/-- The keys are the same, and their values are as close as the comparison asks for. -/
structure Agree : Prop where
  keys : ∀ key, key ∈ Table.keys actual ↔ key ∈ Table.keys expected
  values : ∀ key a e, Table.get? key actual = some a → Table.get? key expected = some e →
    close a e = true

/-- The problem of a key that is expected to have a value. -/
def problem? (key : String) (e : Float) : Option Problem :=
  match Table.get? key actual with
  | none => some (.missing key e)
  | some a => if close a e then none else some (.differs key a e)

/-- The problems of a map, one after the other. -/
def problemsOf : List Problem :=
  (expected.filterMap fun p => problem? actual p.1 p.2) ++
    (Text.sorted ((Table.keys actual).filter fun key => !Table.has key expected)).map .unexpected

theorem mapProblems_eq : mapProblems actual expected = (problemsOf actual expected).map (·.text) := by
  rw [mapProblems, problemsOf, List.map_append, List.map_map]
  congr 1
  rw [changedKeys, List.map_filterMap]
  refine List.filterMap_congr fun p _ => ?_
  obtain ⟨key, e⟩ := p
  simp only [problem?]
  cases Table.get? key actual with
  | none => rfl
  | some a =>
    dsimp only
    split <;> rfl

variable {actual expected}

theorem problem?_eq_some {key : String} {e : Float} {p : Problem}
    (h : problem? actual key e = some p) (hkey : Table.get? key expected = some e) :
    p.Holds actual expected ∧ p.key = key := by
  simp only [problem?] at h
  split at h
  · rename_i hnone
    obtain rfl := Option.some.inj h
    exact ⟨⟨hkey, hnone⟩, rfl⟩
  · rename_i a hsome
    split at h
    · cases h
    · rename_i hapart
      obtain rfl := Option.some.inj h
      exact ⟨⟨hkey, hsome, by simpa using hapart⟩, rfl⟩

section

variable (hexpected : (Table.keys expected).Nodup)
include hexpected

/-- Every problem that there is is found, and nothing else. -/
theorem mem_problemsOf (p : Problem) : p ∈ problemsOf actual expected ↔ p.Holds actual expected := by
  constructor
  · intro hp
    rcases List.mem_append.mp hp with hchanged | hunexpected
    · obtain ⟨q, hq, hproblem⟩ := List.mem_filterMap.mp hchanged
      exact (problem?_eq_some hproblem (Table.get?_of_mem hexpected hq)).1
    · obtain ⟨key, hkey, rfl⟩ := List.mem_map.mp hunexpected
      obtain ⟨hactual, habsent⟩ := List.mem_filter.mp (List.mem_mergeSort.mp hkey)
      exact ⟨hactual, Table.get?_eq_none_iff.mp (by simpa [Table.has] using habsent)⟩
  · intro hholds
    cases p with
    | missing key e =>
      obtain ⟨hkey, hnone⟩ := hholds
      refine List.mem_append_left _ (List.mem_filterMap.mpr ⟨_, Table.mem_of_get? hkey, ?_⟩)
      rw [problem?, hnone]
    | differs key a e =>
      obtain ⟨hkey, hsome, hapart⟩ := hholds
      refine List.mem_append_left _ (List.mem_filterMap.mpr ⟨_, Table.mem_of_get? hkey, ?_⟩)
      simp only [problem?, hsome, hapart]
      rfl
    | unexpected key =>
      obtain ⟨hactual, habsent⟩ := hholds
      refine List.mem_append_right _ (List.mem_map.mpr ⟨key, List.mem_mergeSort.mpr ?_, rfl⟩)
      exact List.mem_filter.mpr
        ⟨hactual, by simp [Table.has, Table.get?_eq_none_iff.mpr habsent]⟩

/-- No key has two problems. -/
theorem nodup_keys_problemsOf (hactual : (Table.keys actual).Nodup) :
    ((problemsOf actual expected).map (·.key)).Nodup := by
  have hchanged : ∀ {t : Table Float}, (∀ p ∈ t, Table.get? p.1 expected = some p.2) →
      ((t.filterMap fun p => problem? actual p.1 p.2).map (·.key)).Sublist (Table.keys t) := by
    intro t ht
    induction t with
    | nil => exact .slnil
    | cons p t ih =>
      obtain ⟨hp, ht⟩ := List.forall_mem_cons.mp ht
      rw [List.filterMap_cons]
      cases hproblem : problem? actual p.1 p.2 with
      | none => exact (ih ht).cons p.1
      | some q =>
        rw [List.map_cons, (problem?_eq_some hproblem hp).2]
        exact (ih ht).cons_cons p.1
  have hkeys := hchanged fun p hp => Table.get?_of_mem hexpected hp
  rw [problemsOf, List.map_append, List.map_map]
  refine List.nodup_append.mpr ⟨hkeys.nodup hexpected, ?_, ?_⟩
  · refine List.Nodup.map (fun _ _ h => h) ?_
    exact (List.mergeSort_perm _ _).nodup_iff.mpr (hactual.filter _)
  · intro key hkey other hother hsame
    obtain ⟨key', hunexpected, rfl⟩ := List.mem_map.mp hother
    have habsent := (List.mem_filter.mp (List.mem_mergeSort.mp hunexpected)).2
    have hnone : key' ∉ Table.keys expected :=
      Table.get?_eq_none_iff.mp (by simpa [Table.has] using habsent)
    have hkey' : key = key' := hsame
    exact hnone (hkey' ▸ hkeys.subset hkey)

/-- There are no problems if and only if the maps agree. -/
theorem problemsOf_eq_nil_iff : problemsOf actual expected = [] ↔ Agree actual expected := by
  rw [List.eq_nil_iff_forall_not_mem]
  simp only [mem_problemsOf hexpected]
  constructor
  · intro hnone
    refine ⟨fun key => ⟨fun hactual => ?_, fun hkey => ?_⟩, fun key a e hactual hkey => ?_⟩
    · by_contra habsent
      exact hnone (.unexpected key) ⟨hactual, habsent⟩
    · by_contra habsent
      cases hget : Table.get? key expected with
      | none => exact Table.get?_eq_none_iff.mp hget hkey
      | some e => exact hnone (.missing key e) ⟨hget, Table.get?_eq_none_iff.mpr habsent⟩
    · by_contra hapart
      exact hnone (.differs key a e) ⟨hkey, hactual, by simpa using hapart⟩
  · rintro ⟨hkeys, hvalues⟩ p hp
    cases p with
    | missing key e =>
      obtain ⟨hkey, hnone⟩ := hp
      have hmem : key ∈ Table.keys expected := List.mem_map_of_mem (Table.mem_of_get? hkey)
      exact Table.get?_eq_none_iff.mp hnone ((hkeys key).mpr hmem)
    | differs key a e =>
      obtain ⟨hkey, hactual, hapart⟩ := hp
      simp [hvalues key a e hactual hkey] at hapart
    | unexpected key => exact hp.2 ((hkeys key).mp hp.1)

end

/-! ### The comparison -/

/-- The comparison of a written map finds nothing if and only if the map agrees with what is
expected. Otherwise there is one finding, on the line of the name, and it lists the problems: those
of each key that is missing, differs or is not expected, each of them once, and no others. -/
theorem compare_mapSource {name : String} (s : MapSource name) {expected : Table Float}
    (hexpected : (Table.keys expected).Nodup) (origin : String) :
    ((Expectation.map name expected origin).compare s.text = .ok [] ↔ Agree s.map expected) ∧
    (¬Agree s.map expected → ∃ problems : List Problem,
      (Expectation.map name expected origin).compare s.text = .ok [⟨some s.line,
        name ++ " drifted from " ++ origin ++ ": " ++
          String.intercalate "; " (problems.map (·.text))⟩] ∧
      (problems.map (·.key)).Nodup ∧ ∀ p, p ∈ problems ↔ p.Holds s.map expected) := by
  have hactual : (Table.keys s.map).Nodup := by
    have hdistinct := s.distinct
    rwa [MapSource.map, Table.keys, List.map_map]
  have hcompare : (Expectation.map name expected origin).compare s.text = .ok
      (if (problemsOf s.map expected).isEmpty then [] else [⟨some s.line,
        name ++ " drifted from " ++ origin ++ ": " ++
          String.intercalate "; " ((problemsOf s.map expected).map (·.text))⟩]) := by
    rw [Expectation.compare, Expectation.compareMap, s.assignedMap?_text]
    simp only [mapProblems_eq, List.isEmpty_map]
  rw [← problemsOf_eq_nil_iff hexpected, hcompare]
  cases hproblems : problemsOf s.map expected with
  | nil => simp
  | cons p ps =>
    refine ⟨by simp, fun _ => ⟨p :: ps, rfl, ?_, fun q => ?_⟩⟩
    · exact hproblems ▸ nodup_keys_problemsOf hexpected hactual
    · rw [← hproblems]
      exact mem_problemsOf hexpected q

/-- A height of 26.5 px, under a key in quotes. -/
def smallHeight : WrittenEntry where
  key := "sm"
  value := ⟨false, ['2', '6'], ['5'], by simp [Decimal.Digits, Text.isAsciiDigit],
    by simp [Decimal.Digits, Text.isAsciiDigit], by simp⟩
  quote := some '"'
  key_ne := by simp
  key_chars := by simp [isKeyChar, Text.isWord]
  quote_isQuote := by simp [isQuote]
  gap_blank := by simp [Text.isBlank]

/-- A height of -4 px, under a bare key. -/
def largeHeight : WrittenEntry where
  key := "2xl"
  value := ⟨true, ['4'], [], by simp [Decimal.Digits, Text.isAsciiDigit],
    by simp [Decimal.Digits], by simp⟩
  key_ne := by simp
  key_chars := by simp [isKeyChar, Text.isWord]
  quote_isQuote := by simp
  gap_blank := by simp [Text.isBlank]

/-- Two heights that the second line of a source text assigns. -/
def heights : MapSource "HEIGHTS" where
  before := ['#', '\n']
  entries := [smallHeight, largeHeight]
  body := smallHeight.chars ++ (',' :: '\n' :: (largeHeight.chars ++ ['\n']))
  after := ['\n', '\x7d']
  startsLine := by simp
  absent := by decide
  oneLine := by decide
  gap_blank := by simp [Text.isBlank]
  gap'_blank := by simp [Text.isBlank]
  writes := by
    have hlast : Writes [largeHeight] ([',', '\n'] ++ (largeHeight.chars ++ ['\n'])) :=
      .entry (by simp [isSeparator, Text.isBlank]) largeHeight
        (.done (by simp [isSeparator, Text.isBlank])) (by simp [isSeparator, Text.isBlank])
    exact .entry (List.forall_mem_nil _) smallHeight hlast (by simp [isSeparator])
  distinct := by decide

example : heights.text = "#\nHEIGHTS = \x7b\"sm\": 26.5,\n2xl: -4\n\x7d\n\x7d" := by decide +kernel

/-- A height that is expected is not among them. -/
theorem not_agree_heights : ¬Agree heights.map [("sm", 26.5), ("md", 36)] := by
  intro h
  have hexpected : "md" ∈ Table.keys [("sm", (26.5 : Float)), ("md", 36)] := by decide
  have hactual : "md" ∉ Table.keys heights.map := by decide
  exact hactual ((h.keys "md").mpr hexpected)

theorem compare_mapSource_heights :
    (Table.keys [("sm", (26.5 : Float)), ("md", 36)]).Nodup ∧
    ∃ problems : List Problem,
      (Expectation.map "HEIGHTS" [("sm", 26.5), ("md", 36)] "Button.size height").compare
        heights.text = .ok [⟨some heights.line, "HEIGHTS" ++ " drifted from " ++
          "Button.size height" ++ ": " ++ String.intercalate "; " (problems.map (·.text))⟩] ∧
      (problems.map (·.key)).Nodup ∧
        ∀ p, p ∈ problems ↔ p.Holds heights.map [("sm", 26.5), ("md", 36)] :=
  ⟨by decide, (compare_mapSource heights (by decide) "Button.size height").2 not_agree_heights⟩

end DesignTokens.Drift
