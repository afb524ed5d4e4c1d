import DesignTokens.Proofs.Decimal.Compare
import DesignTokens.Proofs.Drift.Drifted
import DesignTokens.Proofs.Results
import DesignTokens.Proofs.Utility.Updates
import DesignTokens.Registry.Load

/-!
Maps written as they are expected. The comparison reads keys of word characters, points and hyphens
and no others, while a component may name its values as it likes. So a source text that assigns just
what a rule expects passes if and only if all keys are of that kind; any other key is missing,
whatever the text says.
-/
namespace DesignTokens.Drift

open Text Text.Pattern

/-! ### Keys that are read -/

/-- A key that the comparison can read. -/
def IsKey (key : String) : Prop := key ≠ "" ∧ ∀ c ∈ key.toList, isKeyChar c

instance (key : String) : Decidable (IsKey key) := inferInstanceAs (Decidable (_ ∧ _))

theorem isKey_of_entryAt? {cs rest : List Char} {key : String} {x : Float}
    (h : entryAt? cs = some (key, x, rest)) : IsKey key := by
  unfold entryAt? at h
  simp only at h
  split at h
  · cases h
  · rename_i hne
    split at h
    · obtain ⟨n, -, h⟩ := Option.bind_eq_some_iff.mp h
      obtain ⟨p, -, h⟩ := Option.bind_eq_some_iff.mp h
      obtain rfl := (Prod.mk.inj (Option.some.inj h)).1
      refine ⟨fun hempty => hne ?_, fun c hc => ?_⟩
      · rw [← String.toList_ofList (l := (dropQuote cs).takeWhile isKeyChar), hempty]
        rfl
      · rw [String.toList_ofList] at hc
        exact List.mem_takeWhile_imp hc
    · cases h

theorem isKey_of_mem_entriesFrom {skip : Nat} {cs : List Char} {p : String × Float}
    (h : p ∈ entriesFrom skip cs) : IsKey p.1 := by
  induction cs generalizing skip with
  | nil => cases skip <;> cases h
  | cons c cs ih =>
    cases skip with
    | succ skip => exact ih h
    | zero =>
      rw [entriesFrom] at h
      split at h
      · rename_i hentry
        rcases List.mem_cons.mp h with rfl | h
        · exact isKey_of_entryAt? hentry
        · exact ih h
      · exact ih h

theorem isKey_of_assignedMap? {text name : String} {t : Table Float} {line : Nat}
    (h : assignedMap? text name = some (t, line)) : ∀ key ∈ Table.keys t, IsKey key := by
  obtain ⟨place, -, h⟩ := Option.bind_eq_some_iff.mp h
  obtain ⟨block, -, h⟩ := Option.bind_eq_some_iff.mp h
  obtain rfl := (Prod.mk.inj (Option.some.inj h)).1
  intro key hkey
  obtain ⟨p, hp, rfl⟩ := List.mem_map.mp hkey
  exact isKey_of_mem_entriesFrom (Table.mem_of_mem_ofPairs hp)

/-! ### Object literals -/

/-- A key and the decimal that is written after it. -/
structure Member where
  key : String
  value : Literal

/-- The key in double quotes, a colon, a gap and the decimal. -/
def Member.chars (m : Member) (gap : List Char) : List Char :=
  '"' :: (m.key.toList ++ '"' :: ':' :: (gap ++ m.value.chars))

/-- The members of an object literal, with commas and blanks around them. -/
inductive WritesObject : List Member → List Char → Prop where
  | done {sep : List Char} (hsep : ∀ c ∈ sep, isSeparator c) : WritesObject [] sep
  | member {sep gap rest : List Char} {ms : List Member} (hsep : ∀ c ∈ sep, isSeparator c)
      (m : Member) (hgap : ∀ c ∈ gap, isBlank c) (hrest : WritesObject ms rest)
      (hedge : ∀ c ∈ rest.head?, isSeparator c) :
      WritesObject (m :: ms) (sep ++ (m.chars gap ++ rest))

/-- An object literal whose keys can be read is a written map. -/
theorem WritesObject.exists_writes {ms : List Member} {body : List Char} (h : WritesObject ms body)
    (hkeys : ∀ m ∈ ms, IsKey m.key) : ∃ es, Writes es body ∧
      es.map (fun e => (e.key, e.value.value)) = ms.map fun m => (m.key, m.value.value) := by
  induction h with
  | done hsep => exact ⟨[], .done hsep, rfl⟩
  | @member sep gap rest ms hsep m hgap _ hedge ih =>
    obtain ⟨⟨hne, hchars⟩, hkeys⟩ := List.forall_mem_cons.mp hkeys
    obtain ⟨es, hes, hmap⟩ := ih hkeys
    let e : WrittenEntry :=
      { key := m.key
        value := m.value
        quote := some '"'
        gap
        key_ne := by simpa using hne
        key_chars := hchars
        quote_isQuote := by simp [isQuote]
        gap_blank := hgap }
    exact ⟨e :: es, .entry hsep e hes hedge, congrArg (_ :: ·) hmap⟩

/-! ### Assignments -/

/-- A source text that assigns an object literal to a name. -/
structure ObjectSource (name : String) where
  before : List Char := []
  gap : List Char := [' ']
  gap' : List Char := [' ']
  members : List Member
  body : List Char
  after : List Char := []
  precedes : Precedes name before
  gap_blank : ∀ c ∈ gap, isBlank c
  gap'_blank : ∀ c ∈ gap', isBlank c
  writes : WritesObject members body

namespace ObjectSource

variable {name : String} (s : ObjectSource name)

def text : String :=
  String.ofList (s.before ++ (name.toList ++ (s.gap ++ '=' :: (s.gap' ++ '\x7b' ::
    (s.body ++ '\x7d' :: s.after)))))

/-- The map that is written. -/
def map : Table Float := s.members.map fun m => (m.key, m.value.value)

/-- Where all keys can be read, so can the map. -/
theorem exists_assignedMap? (hnodup : (Table.keys s.map).Nodup)
    (hkeys : ∀ key ∈ Table.keys s.map, IsKey key) :
    ∃ line, assignedMap? s.text name = some (s.map, line) := by
  have hmembers : ∀ m ∈ s.members, IsKey m.key := fun m hm =>
    hkeys _ (List.mem_map_of_mem (List.mem_map_of_mem hm))
  obtain ⟨es, hes, hmap⟩ := s.writes.exists_writes hmembers
  have hdistinct : (es.map (·.key)).Nodup := by
    rw [map, ← hmap, Table.keys, List.map_map] at hnodup
    exact hnodup
  obtain ⟨start, stop, hfind, -, hrest⟩ : ∃ start stop,
      findAssignment s.text name = some (start, stop) ∧ start.offset = s.before.length ∧
        stop.rest = '\x7b' :: (s.body ++ '\x7d' :: s.after) :=
    s.precedes.exists_findAssignment s.gap_blank s.gap'_blank (forall_head?_cons (by decide))
  refine ⟨lineOf s.text start.offset, ?_⟩
  rw [assignedMap?, hfind]
  simp only [Option.bind_eq_bind, Option.bind_some, hrest, block?_writes hes,
    entriesOf_writes hes hdistinct, hmap]
  rfl

end ObjectSource

/-- The members after the first, each after a comma and a blank. -/
def moreMembers : List Member → List Char
  | [] => []
  | m :: ms => ',' :: ' ' :: (m.chars [' '] ++ moreMembers ms)

theorem writesObject_more (ms : List Member) : WritesObject ms (moreMembers ms) := by
  have hsep : ∀ c ∈ [',', ' '], isSeparator c := by simp [isSeparator, isBlank]
  induction ms with
  | nil => exact .done (List.forall_mem_nil _)
  | cons m ms ih =>
    refine .member hsep m isBlank_of_mem_space ih ?_
    cases ms <;> simp [moreMembers, isSeparator]

theorem writesObject_drop_more (ms : List Member) : WritesObject ms ((moreMembers ms).drop 2) := by
  cases ms with
  | nil => exact .done (List.forall_mem_nil _)
  | cons m ms =>
    refine .member (List.forall_mem_nil _) m isBlank_of_mem_space (writesObject_more ms) ?_
    cases ms <;> simp [moreMembers, isSeparator]

/-- A text of one line, with a blank after each colon and each comma. -/
def ObjectSource.ofMembers (name : String) (ms : List Member) : ObjectSource name where
  members := ms
  body := (moreMembers ms).drop 2
  precedes := .start
  gap_blank := isBlank_of_mem_space
  gap'_blank := isBlank_of_mem_space
  writes := writesObject_drop_more ms

/-! ### The comparison -/

theorem close_self {x : Float} (h : Decimal.isFinite x) : close x x = true := by
  rw [close, Decimal.beq_self_of_isFinite h, Bool.true_or]

theorem agree_self {t : Table Float} (hfinite : ∀ p ∈ t, Decimal.isFinite p.2) : Agree t t := by
  refine ⟨fun _ => Iff.rfl, fun key a e ha he => ?_⟩
  obtain rfl : a = e := Option.some.inj (ha.symm.trans he)
  exact close_self (hfinite _ (Table.mem_of_get? ha))

theorem compareMap_of_assignedMap? {name origin text : String} {actual expected : Table Float}
    {line : Nat} (h : assignedMap? text name = some (actual, line)) :
    Expectation.compareMap name expected origin text =
      if (problemsOf actual expected).isEmpty then [] else [⟨some line,
        name ++ " drifted from " ++ origin ++ ": " ++
          String.intercalate "; " ((problemsOf actual expected).map (·.text))⟩] := by
  rw [Expectation.compareMap, h]
  simp only [mapProblems_eq, List.isEmpty_map]

/-- What is found where a key is missing: that the name has no map at all, or a list of problems
with that of the key among them. -/
def NamesMissing (name origin key : String) (x : Float) (findings : List Finding) : Prop :=
  findings = [⟨none, name ++ " is not assigned a literal map"⟩] ∨
    ∃ line, ∃ problems : List Problem, .missing key x ∈ problems ∧
      findings = [⟨some line, name ++ " drifted from " ++ origin ++ ": " ++
        String.intercalate "; " (problems.map (·.text))⟩]

theorem NamesMissing.ne_nil {name origin key : String} {x : Float} {findings : List Finding}
    (h : NamesMissing name origin key x findings) : findings ≠ [] := by
  rcases h with h | ⟨line, problems, -, h⟩
  all_goals
    rw [h]
    exact List.cons_ne_nil _ _

/-- A key that cannot be read is missing from every text. -/
theorem namesMissing_of_not_isKey {expected : Table Float} (hexpected : (Table.keys expected).Nodup)
    {key : String} {x : Float} (hkey : Table.get? key expected = some x) (hunread : ¬IsKey key)
    (name origin text : String) :
    NamesMissing name origin key x (Expectation.compareMap name expected origin text) := by
  cases hmap : assignedMap? text name with
  | none =>
    refine .inl ?_
    rw [Expectation.compareMap, hmap]
  | some found =>
    obtain ⟨actual, line⟩ := found
    have habsent : key ∉ Table.keys actual :=
      fun hmem => hunread (isKey_of_assignedMap? hmap key hmem)
    have hmissing : Problem.missing key x ∈ problemsOf actual expected :=
      (mem_problemsOf hexpected _).mpr ⟨hkey, Table.get?_eq_none_iff.mpr habsent⟩
    refine .inr ⟨line, _, hmissing, ?_⟩
    rw [compareMap_of_assignedMap? hmap, if_neg]
    rw [List.isEmpty_iff]
    exact List.ne_nil_of_mem hmissing

theorem compareMap_objectSource {name : String} (s : ObjectSource name) {expected : Table Float}
    (hmap : s.map = expected) (origin : String) (hnodup : (Table.keys expected).Nodup)
    (hfinite : ∀ p ∈ expected, Decimal.isFinite p.2) :
    Expectation.compareMap name expected origin s.text = [] ↔
      ∀ key ∈ Table.keys expected, IsKey key := by
  subst hmap
  constructor
  · intro hnil key hkey
    by_contra hunread
    obtain ⟨x, hx⟩ := Table.exists_get?_of_mem_keys hkey
    exact (namesMissing_of_not_isKey hnodup hx hunread name origin s.text).ne_nil hnil
  · intro hkeys
    obtain ⟨line, hread⟩ := s.exists_assignedMap? hnodup hkeys
    rw [compareMap_of_assignedMap? hread, if_pos]
    rw [List.isEmpty_iff, problemsOf_eq_nil_iff hnodup]
    exact agree_self hfinite

/-! ### Rules for maps -/

/-- No two numbers are expected under one key, and the keys are those of values. -/
theorem keys_expectedMap (scales : Theme.Scales) (settings : Utility.Settings) (a : VariantAxis)
    (field : String) : (Table.keys (expectedMap scales settings a field)).Nodup ∧
      ∀ key ∈ Table.keys (expectedMap scales settings a field), key ∈ a.keys := by
  refine ⟨Table.nodup_keys_ofPairs _, fun key hkey => ?_⟩
  obtain ⟨p, hp, rfl⟩ := List.mem_map.mp hkey
  obtain ⟨value, hvalue, hp⟩ := List.mem_filterMap.mp (Table.mem_of_mem_ofPairs hp)
  obtain ⟨classes, -, hp⟩ := Option.bind_eq_some_iff.mp hp
  obtain ⟨n, -, hp⟩ := Option.bind_eq_some_iff.mp hp
  obtain ⟨x, -, hp⟩ := Option.bind_eq_some_iff.mp hp
  obtain rfl := Option.some.inj hp
  exact hvalue

/-- What an entry for a map stands for. -/
structure MapEntry where
  component : Component
  axis : VariantAxis
  property : String
  settings : Utility.Settings
  target : Path
  name : String

namespace MapEntry

def origin (m : MapEntry) : String := m.component.name ++ "." ++ m.axis.name ++ " " ++ m.property

/-- The entry `e` is complete, and stands for `m`. -/
structure Reads (c : Config) (registry : Registry) (e : Config.SyncEntry) (m : MapEntry) :
    Prop where
  complete : (e.component.truthy && e.prop.truthy && e.styleProperty.truthy) = true
  component : ∃ owner, e.component.toText = .ok owner ∧ registry.require owner = .ok m.component
  axis : m.component.axis? e.prop.plainText = some m.axis
  property : e.styleProperty.toText = .ok m.property
  settings : c.parsing.settings = .ok m.settings
  target : c.path e.file = .ok m.target
  name : e.name.toText = .ok m.name

/-- The rule that expects a map. -/
def rule (m : MapEntry) (expected : Table Float) : SyncRule :=
  ⟨m.target, .map m.name expected m.origin⟩

end MapEntry

theorem mapRule_eq_ok_iff {c : Config} {s : Theme.Snapshot} {registry : Registry}
    {e : Config.SyncEntry} {r : SyncRule} : mapRule c s registry e = .ok r ↔
      ∃ m, MapEntry.Reads c registry e m ∧
        r = m.rule (expectedMap s.computed m.settings m.axis (Text.snakeCase m.property)) := by
  rw [mapRule]
  dsimp only
  constructor
  · intro h
    split at h
    · cases h
    rename_i hcomplete
    obtain ⟨owner, howner, h⟩ := bind_eq_ok h
    obtain ⟨component, hcomponent, h⟩ := bind_eq_ok h
    split at h
    · rename_i axis haxis
      obtain ⟨property, hproperty, h⟩ := bind_eq_ok h
      obtain ⟨settings, hsettings, h⟩ := bind_eq_ok h
      obtain ⟨target, htarget, h⟩ := bind_eq_ok h
      obtain ⟨name, hname, h⟩ := bind_eq_ok h
      obtain rfl := Except.ok.inj h
      refine ⟨⟨component, axis, property, settings, target, name⟩, ?_, rfl⟩
      exact
        { complete := by simpa using hcomplete
          component := ⟨owner, mapError_eq_ok howner, mapError_eq_ok hcomponent⟩
          axis := haxis
          property := mapError_eq_ok hproperty
          settings := mapError_eq_ok hsettings
          target := mapError_eq_ok htarget
          name := mapError_eq_ok hname }
    · cases h
  · rintro ⟨m, hm, rfl⟩
    obtain ⟨owner, howner, hcomponent⟩ := hm.component
    rw [if_neg (by simpa using hm.complete)]
    simp only [orMismatch, howner, hcomponent, hm.axis, hm.property, hm.settings, hm.target,
      hm.name, Except.mapError, bind_ok]
    rfl

/-- A rule for a map holds the numbers that the classes of an axis stand for. -/
theorem mapRule_eq_ok {c : Config} {s : Theme.Snapshot} {registry : Registry} {e : Config.SyncEntry}
    {r : SyncRule} (h : mapRule c s registry e = .ok r) :
    ∃ owner component axis property settings name, registry.require owner = .ok component ∧
      component.axis? e.prop.plainText = some axis ∧ e.name.toText = .ok name ∧
      r.expectation = .map name (expectedMap s.computed settings axis (Text.snakeCase property))
        (component.name ++ "." ++ axis.name ++ " " ++ property) := by
  obtain ⟨m, hm, rfl⟩ := mapRule_eq_ok_iff.mp h
  obtain ⟨owner, -, hcomponent⟩ := hm.component
  exact ⟨owner, m.component, m.axis, m.property, m.settings, m.name, hcomponent, hm.axis, hm.name,
    rfl⟩

/-- A rule for a map, whatever the registry, and a source text that assigns the expected numbers as
an object literal: nothing is found if and only if all keys can be read. A value of the axis whose
name cannot be read is missing, whatever the text says. -/
theorem compare_written_as_expected {c : Config} {s : Theme.Snapshot} {registry : Registry}
    {e : Config.SyncEntry} {r : SyncRule} (hrule : mapRule c s registry e = .ok r) :
    ∃ owner component axis property settings name origin expected,
      registry.require owner = .ok component ∧
      component.axis? e.prop.plainText = some axis ∧ e.name.toText = .ok name ∧
      expected = expectedMap s.computed settings axis (Text.snakeCase property) ∧
      r.expectation = .map name expected origin ∧
      (∀ key ∈ Table.keys expected, key ∈ axis.keys) ∧
      (∀ source : ObjectSource name, source.map = expected →
        (∀ p ∈ expected, Decimal.isFinite p.2) →
        (r.expectation.compare source.text = .ok [] ↔ ∀ key ∈ Table.keys expected, IsKey key)) ∧
      ∀ key x, Table.get? key expected = some x → ¬IsKey key → ∀ text, ∃ findings,
        r.expectation.compare text = .ok findings ∧ NamesMissing name origin key x findings := by
  obtain ⟨owner, component, axis, property, settings, name, hcomponent, haxis, hname, hmap⟩ :=
    mapRule_eq_ok hrule
  obtain ⟨hnodup, hkeys⟩ :=
    keys_expectedMap s.computed settings axis (Text.snakeCase property)
  refine ⟨owner, component, axis, property, settings, name, _, _, hcomponent, haxis, hname, rfl,
    hmap, hkeys, fun source hsource hfinite => ?_, fun key x hkey hunread text => ?_⟩
  · rw [← compareMap_objectSource source hsource _ hnodup hfinite, hmap, Expectation.compare,
      Except.ok.injEq]
  · rw [hmap]
    exact ⟨_, rfl, namesMissing_of_not_isKey hnodup hkey hunread _ _ _⟩

/-! ### A map with two keys -/

/-- A component with two sizes, the first one under some name. -/
def chipSource (big : String) : Json :=
  .obj [("Chip", .obj [("description", .str ""), ("category", .str ""),
    ("props", .obj [("size", .obj [("values", .ofStrings [big, "sm"]),
      ("classes", .obj [(big, .str "h-[36px]"), ("sm", .str "h-[26.5px]")]),
      ("descriptions", .obj [(big, .str ""), ("sm", .str "")]), ("default", .str "sm")])])])]

def chip (big : String) : Component where
  name := "Chip"
  description := ""
  category := ""
  axes := [⟨"size", [.text big, .text "sm"], [(big, "h-[36px]"), ("sm", "h-[26.5px]")],
    [(big, ""), ("sm", "")], .text "sm", "enum"⟩]
  colors := []
  baseClasses := none
  subComponents := []
  styling := []
  otherProps := []

def chipRegistry (big : String) : Registry := ⟨[("Chip", chip big)], ""⟩

def chipConfig : Config where
  root := ⟨.root, []⟩

def chipEntry : Config.SyncEntry where
  file := "gen.py"
  name := "HEIGHTS"
  component := "Chip"
  prop := "size"
  styleProperty := "height"

theorem readable_36 : Decimal.Numeral.Readable ⟨['3', '6'], [], none⟩ :=
  ⟨by simp [Decimal.Digits, Text.isAsciiDigit], by simp [Decimal.Digits], by simp⟩

theorem readable_26_5 : Decimal.Numeral.Readable ⟨['2', '6'], ['5'], none⟩ :=
  ⟨by simp [Decimal.Digits, Text.isAsciiDigit], by simp [Decimal.Digits, Text.isAsciiDigit], by simp⟩

/-- The numbers 36 and 26.5. -/
def chipMembers (big : String) : List Member :=
  [⟨big, { whole := ['3', '6'], readable := readable_36 }⟩,
    ⟨"sm", { whole := ['2', '6'], fraction := ['5'], readable := readable_26_5 }⟩]

def chipText (big : String) : ObjectSource "HEIGHTS" := .ofMembers "HEIGHTS" (chipMembers big)

/-- The map that a rule expects, if it expects one. -/
def Expectation.map? : Expectation → Option (String × Table Float × String)
  | .map name expected origin => some (name, expected, origin)
  | _ => none

theorem Expectation.eq_map_of_map? {e : Expectation} {p : String × Table Float × String}
    (h : e.map? = some p) : e = .map p.1 p.2.1 p.2.2 := by
  cases e with
  | map name expected origin =>
    obtain rfl := Option.some.inj h
    rfl
  | value | themeData => cases h

theorem exists_mapRule_chip {big : String} (hbig : big ∈ ["extra large", "lg"]) :
    ∃ r, mapRule chipConfig ⟨.plain, .plain, []⟩ (chipRegistry big) chipEntry = .ok r ∧
      r.expectation = .map "HEIGHTS" (chipText big).map "Chip.size height" := by
  have heval : ∀ big ∈ ["extra large", "lg"],
      (mapRule chipConfig ⟨.plain, .plain, []⟩ (chipRegistry big) chipEntry).toOption.bind
        (·.expectation.map?) = some ("HEIGHTS", (chipText big).map, "Chip.size height") := by
    decide +kernel
  obtain ⟨r, hr, hmap⟩ := Option.bind_eq_some_iff.mp (heval big hbig)
  exact ⟨r, toOption_eq_some.mp hr, Expectation.eq_map_of_map? hmap⟩

/-- Plain words pass. -/
theorem compare_written_as_expected_chip :
    ∃ r, mapRule chipConfig ⟨.plain, .plain, []⟩ (chipRegistry "lg") chipEntry = .ok r ∧
      r.expectation.compare (chipText "lg").text = .ok [] := by
  have hbig : "lg" ∈ ["extra large", "lg"] := by decide
  obtain ⟨r, hr, hmap⟩ := exists_mapRule_chip hbig
  obtain ⟨-, -, -, -, -, name, origin, expected, -, -, -, -, hexpectation, -, hiff, -⟩ :=
    compare_written_as_expected hr
  obtain ⟨rfl, rfl, rfl⟩ : "HEIGHTS" = name ∧ (chipText "lg").map = expected ∧ _ = origin := by
    simpa [hmap] using hexpectation
  have hfinite : ∀ p ∈ (chipText "lg").map, Decimal.isFinite p.2 := by decide +kernel
  have hkeys : ∀ key ∈ ["lg", "sm"], IsKey key := by simp [IsKey, isKeyChar, isWord]
  exact ⟨r, hr, (hiff (chipText "lg") rfl hfinite).mpr hkeys⟩

/-- A name of two words, which the loader accepts, is missing from the text that has it. -/
theorem extraLarge_reported :
    Registry.ofJson "" (chipSource "extra large") = .ok (chipRegistry "extra large") ∧
    ∃ r, mapRule chipConfig ⟨.plain, .plain, []⟩ (chipRegistry "extra large") chipEntry = .ok r ∧
      r.expectation = .map "HEIGHTS" [("extra large", 36), ("sm", 26.5)] "Chip.size height" ∧
      (chipText "extra large").text = "HEIGHTS = \x7b\"extra large\": 36, \"sm\": 26.5\x7d" ∧
      r.expectation.compare (chipText "extra large").text = .ok [⟨some 1,
        "HEIGHTS drifted from Chip.size height: missing extra large (expected 36); " ++
          "unexpected key large"⟩] := by
  have hbig : "extra large" ∈ ["extra large", "lg"] := by decide
  obtain ⟨r, hr, hmap⟩ := exists_mapRule_chip hbig
  have hwritten : (chipText "extra large").map = [("extra large", 36), ("sm", 26.5)] := by
    decide +kernel
  rw [hwritten] at hmap
  refine ⟨by with_unfolding_all rfl, r, hr, hmap, by decide +kernel, ?_⟩
  have hfindings : Expectation.compareMap "HEIGHTS" [("extra large", 36), ("sm", 26.5)]
      "Chip.size height" (chipText "extra large").text = [⟨some 1,
        "HEIGHTS drifted from Chip.size height: missing extra large (expected 36); " ++
          "unexpected key large"⟩] := by
    have hread : assignedMap? (chipText "extra large").text "HEIGHTS" =
        some ([("large", 36), ("sm", 26.5)], 1) := by decide +kernel
    have hsorted : Text.sorted ["large"] = ["large"] := List.mergeSort_singleton _
    have hproblems : mapProblems [("large", 36), ("sm", 26.5)] [("extra large", 36), ("sm", 26.5)] =
        ["missing extra large (expected 36)", "unexpected key large"] := by
      have hchanged : changedKeys [("large", 36), ("sm", 26.5)] [("extra large", 36), ("sm", 26.5)] =
          ["missing extra large (expected 36)"] := by decide +kernel
      rw [mapProblems, hchanged]
      exact congrArg (_ ++ List.map _ ·) hsorted
    rw [Expectation.compareMap, hread]
    simp only [hproblems]
    rfl
  rw [hmap, Expectation.compare, hfindings]

end DesignTokens.Drift
