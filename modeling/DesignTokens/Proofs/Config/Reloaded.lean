import DesignTokens.Config
import DesignTokens.Proofs.Json.Same
import DesignTokens.Proofs.Results

/-!
Configurations that are written and read again. What is written names every setting, so that no
default is filled in on the way back; only the constants of layout, which may be integers by
default, come back as floats.
-/
namespace DesignTokens

open Json (Mismatch)

/-- The nearest float of a number. -/
def Number.asFloat (n : Number) : Number :=
  match n.toFloat? with
  | some x => .float x
  | none => .overflow

/-- A number whose nearest float has its value. -/
def Number.isFloat (n : Number) : Bool := n.toFloat?.any fun x => !n.isValue || Number.float x == n

theorem Number.asFloat_beq {n : Number} (h : n.isFloat) (hn : n.isValue) : n.asFloat == n := by
  obtain ⟨x, hx, hbeq⟩ := (Option.any_eq_true _ _).mp h
  rw [asFloat, hx]
  simpa [hn] using hbeq

theorem Number.isFloat_float (x : Float) : (Number.float x).isFloat := by
  cases hvalue : (Number.float x).isValue with
  | false => simp [isFloat, toFloat?, hvalue]
  | true => simp [isFloat, toFloat?, beq_self hvalue]

/-! ### Constants of layout -/

namespace Matrix.Constants

variable {ε α β γ : Type}

/-- The constants, one after the other. -/
def values (k : Constants α) : List α :=
  [k.sectionPadding, k.sectionGap, k.startX, k.startY, k.modeGap, k.titleHeight, k.gapX, k.gapY,
    k.headerRowHeight, k.labelColumnWidth, k.labelFontSize, k.charWidthRatio]

def map (f : α → β) (k : Constants α) : Constants β :=
  ⟨f k.sectionPadding, f k.sectionGap, f k.startX, f k.startY, f k.modeGap, f k.titleHeight,
    f k.gapX, f k.gapY, f k.headerRowHeight, f k.labelColumnWidth, f k.labelFontSize,
    f k.charWidthRatio⟩

def zipWith (f : α → β → γ) (k : Constants α) (l : Constants β) : Constants γ :=
  ⟨f k.sectionPadding l.sectionPadding, f k.sectionGap l.sectionGap, f k.startX l.startX,
    f k.startY l.startY, f k.modeGap l.modeGap, f k.titleHeight l.titleHeight, f k.gapX l.gapX,
    f k.gapY l.gapY, f k.headerRowHeight l.headerRowHeight, f k.labelColumnWidth l.labelColumnWidth,
    f k.labelFontSize l.labelFontSize, f k.charWidthRatio l.charWidthRatio⟩

/-- The results of twelve computations that may fail. -/
def sequence (k : Constants (Except ε α)) : Except ε (Constants α) := do
  return ⟨← k.sectionPadding, ← k.sectionGap, ← k.startX, ← k.startY, ← k.modeGap, ← k.titleHeight,
    ← k.gapX, ← k.gapY, ← k.headerRowHeight, ← k.labelColumnWidth, ← k.labelFontSize,
    ← k.charWidthRatio⟩

theorem sequence_map_ok (k : Constants α) : (k.map (Except.ok (ε := ε))).sequence = .ok k := rfl

theorem eq_map_ok {k : Constants (Except ε α)} {l : Constants α} (h : k.sequence = .ok l) :
    k = l.map .ok := by
  obtain ⟨x1, x2, x3, x4, x5, x6, x7, x8, x9, x10, x11, x12⟩ := k
  obtain ⟨y1, rfl, h⟩ := bind_eq_ok h
  obtain ⟨y2, rfl, h⟩ := bind_eq_ok h
  obtain ⟨y3, rfl, h⟩ := bind_eq_ok h
  obtain ⟨y4, rfl, h⟩ := bind_eq_ok h
  obtain ⟨y5, rfl, h⟩ := bind_eq_ok h
  obtain ⟨y6, rfl, h⟩ := bind_eq_ok h
  obtain ⟨y7, rfl, h⟩ := bind_eq_ok h
  obtain ⟨y8, rfl, h⟩ := bind_eq_ok h
  obtain ⟨y9, rfl, h⟩ := bind_eq_ok h
  obtain ⟨y10, rfl, h⟩ := bind_eq_ok h
  obtain ⟨y11, rfl, h⟩ := bind_eq_ok h
  obtain ⟨y12, rfl, h⟩ := bind_eq_ok h
  cases h
  rfl

/-- The names of the constants in a configuration. -/
def names : Constants String :=
  ⟨"sectionPadding", "sectionGap", "startX", "startY", "modeGap", "titleHeight", "gapX", "gapY",
    "headerRowHeight", "labelColumnWidth", "labelFontSize", "charWidthRatio"⟩

/-- One constant of a configuration object. -/
def read (v : Json) (name : String) (default : Number) : Except Mismatch Number := do
  if ← v.mentions name then return .float (← (← v.member name).toFloat) else return default

theorem ofJson_eq (v : Json) : ofJson v = (zipWith (read v) names default).sequence := rfl

/-- A constant that is read is a float or the default. -/
theorem eq_or_of_read {v : Json} {name : String} {d n : Number} (h : read v name d = .ok n) :
    (∃ x, n = .float x) ∨ n = d := by
  obtain ⟨found, -, h⟩ := bind_eq_ok h
  cases found with
  | false => exact .inr (Except.ok.inj h).symm
  | true =>
    obtain ⟨w, -, h⟩ := bind_eq_ok h
    obtain ⟨x, -, h⟩ := bind_eq_ok h
    exact .inl ⟨x, (Except.ok.inj h).symm⟩

theorem isFloat_default : ∀ n ∈ default.values, n.isFloat := by decide +kernel

theorem isFloat_of_ofJson {v : Json} {k : Constants Number} (h : ofJson v = .ok k) :
    ∀ n ∈ k.values, n.isFloat := by
  rw [ofJson_eq] at h
  have hread : List.zipWith (read v) names.values default.values = k.values.map .ok :=
    congrArg values (eq_map_ok h)
  intro n hn
  have hmem : Except.ok n ∈ List.zipWith (read v) names.values default.values :=
    hread ▸ List.mem_map_of_mem hn
  obtain ⟨name, d, hd, hname⟩ : ∃ name d, d ∈ default.values ∧ read v name d = .ok n := by
    rw [← List.map_uncurry_zip_eq_zipWith] at hmem
    obtain ⟨⟨name, d⟩, hpair, hname⟩ := List.mem_map.mp hmem
    exact ⟨name, d, (List.of_mem_zip hpair).2, hname⟩
  rcases eq_or_of_read hname with ⟨x, rfl⟩ | rfl
  · exact Number.isFloat_float x
  · exact isFloat_default n hd

/-- What is written names every constant, and is read back as floats. -/
theorem ofJson_toJson {k : Constants Number} (h : ∀ n ∈ k.values, n.isFloat) :
    ofJson k.toJson = .ok (k.map Number.asFloat) := by
  have hread {n : Number} (hn : n.isFloat) :
      (do return Number.float (← (Json.num n).toFloat)) = Except.ok (ε := Mismatch) n.asFloat := by
    obtain ⟨x, hx, -⟩ := (Option.any_eq_true _ _).mp hn
    rw [Json.toFloat, hx, Number.asFloat, hx]
    rfl
  have hconstants : zipWith (read k.toJson) names default = (k.map Number.asFloat).map .ok := by
    simp only [values, List.forall_mem_cons] at h
    obtain ⟨h1, h2, h3, h4, h5, h6, h7, h8, h9, h10, h11, h12, -⟩ := h
    simp only [zipWith, map, mk.injEq]
    exact ⟨hread h1, hread h2, hread h3, hread h4, hread h5, hread h6, hread h7, hread h8,
      hread h9, hread h10, hread h11, hread h12⟩
  rw [ofJson_eq, hconstants, sequence_map_ok]

theorem namesOnce (k : Constants Number) : k.toJson.NamesOnce := by simp [toJson, Table.keys]

theorem same_toJson {k l : Constants Number}
    (h : List.Forall₂ (fun m n => m == n) k.values l.values) : k.toJson.same l.toJson := by
  simp only [values, List.forall₂_cons, List.forall₂_nil_left_iff] at h
  exact Json.same_of_forall₂ l.namesOnce.fields.1 (by simpa [Json.same, Json.number?] using h)

end Matrix.Constants

namespace Json

variable {v w d : Json} {name : String}

theorem NamesOnce.memberD (hv : v.NamesOnce) (hd : d.NamesOnce) (h : v.memberD name d = .ok w) :
    w.NamesOnce := by
  obtain ⟨fields, hfields, h⟩ := bind_eq_ok h
  cases v with
  | obj fs =>
    obtain rfl := Except.ok.inj hfields
    obtain rfl := Except.ok.inj h
    cases hget : Table.get? name fs with
    | none => simpa [hget] using hd
    | some w => simpa [hget] using hv.fields.get? hget
  | _ => cases hfields

theorem NamesOnce.member (hv : v.NamesOnce) (h : v.member name = .ok w) : w.NamesOnce := by
  cases v with
  | obj fs =>
    rw [Json.member] at h
    split at h
    · rename_i hget
      obtain rfl := Except.ok.inj h
      exact hv.fields.get? hget
    · cases h
  | _ => cases h

theorem NamesOnce.items {xs : List Json} (hv : v.NamesOnce) (h : v.items = .ok xs) :
    ∀ x ∈ xs, x.NamesOnce := by
  cases v with
  | arr items =>
    obtain rfl := Except.ok.inj h
    exact namesOnce_arr_iff.mp hv
  | str s | obj fs =>
    obtain rfl := Except.ok.inj h
    intro x hx
    obtain ⟨y, -, rfl⟩ := List.mem_map.mp hx
    exact .str _
  | _ => cases h

@[simp] theorem namesOnce_ofStrings (xs : List String) : NamesOnce (.ofStrings xs) := by
  simp [ofStrings]

end Json

namespace Config

theorem Paths.ofJson_toJson (p : Paths) : Paths.ofJson p.toJson = .ok p := rfl

theorem Parsing.ofJson_toJson (p : Parsing) : Parsing.ofJson p.toJson = .ok p := rfl

theorem Logging.ofJson_toJson (l : Logging) : Logging.ofJson l.toJson = .ok l := rfl

theorem SyncEntry.ofJson_toJson (e : SyncEntry) : SyncEntry.ofJson e.toJson = .ok e := rfl

theorem Drift.ofJson_toJson (d : Drift) : Drift.ofJson d.toJson = .ok d := by
  have hsync : (d.sync.map SyncEntry.toJson).mapM SyncEntry.ofJson = .ok d.sync :=
    mapM_map_eq_ok d.sync fun e _ => e.ofJson_toJson
  change (do
    let sync ← (d.sync.map SyncEntry.toJson).mapM SyncEntry.ofJson
    return { d with sync }) = Except.ok d
  rw [hsync]
  rfl

theorem Layout.ofJson_toJson {l : Layout} (h : ∀ n ∈ l.constants.values, n.isFloat) :
    Layout.ofJson l.toJson = .ok { l with constants := l.constants.map Number.asFloat } := by
  let read (p : String × Json) : Except Mismatch (String × List Json) := do
    return (p.1, ← p.2.items)
  have haxes : (Table.mapValues Json.arr l.rowAxes).mapM read = .ok l.rowAxes :=
    mapM_map_eq_ok l.rowAxes fun _ _ => rfl
  change (do
    let rowAxes ← (Table.mapValues Json.arr l.rowAxes).mapM read
    let constants ← Matrix.Constants.ofJson l.constants.toJson
    return (⟨l.modes, rowAxes, constants⟩ : Layout)) = _
  rw [haxes, Matrix.Constants.ofJson_toJson h]
  rfl

/-- What is written of a configuration is read as it was, with floats for the constants. -/
theorem ofJson_toJson {c : Config} (h : ∀ n ∈ c.layout.constants.values, n.isFloat) :
    ofJson c.root c.toJson =
      .ok { c with layout := { c.layout with
        constants := c.layout.constants.map Number.asFloat } } := by
  change (do
    let paths ← Paths.ofJson c.paths.toJson
    let parsing ← Parsing.ofJson c.parsing.toJson
    let layout ← Layout.ofJson c.layout.toJson
    let drift ← Drift.ofJson c.drift.toJson
    let logging ← Logging.ofJson c.logging.toJson
    return ({ paths, parsing, layout, drift, logging, root := c.root } : Config)) = _
  rw [Paths.ofJson_toJson, Parsing.ofJson_toJson, Layout.ofJson_toJson h, Drift.ofJson_toJson,
    Logging.ofJson_toJson]
  rfl

/-! ### Names -/

variable {v : Json}

theorem Paths.namesOnce {p : Paths} (hv : v.NamesOnce) (h : Paths.ofJson v = .ok p) :
    p.toJson.NamesOnce := by
  obtain ⟨x1, h1, h⟩ := bind_eq_ok h
  obtain ⟨x2, h2, h⟩ := bind_eq_ok h
  obtain ⟨x3, h3, h⟩ := bind_eq_ok h
  obtain ⟨x4, h4, h⟩ := bind_eq_ok h
  obtain ⟨x5, h5, h⟩ := bind_eq_ok h
  obtain ⟨x6, h6, h⟩ := bind_eq_ok h
  cases h
  simp [toJson, Table.keys, hv.memberD (by simp) h1, hv.memberD (by simp) h2,
    hv.memberD (by simp) h3, hv.memberD (by simp) h4, hv.memberD (by simp) h5,
    hv.memberD (by simp) h6]

theorem Parsing.namesOnce {p : Parsing} (hv : v.NamesOnce) (h : Parsing.ofJson v = .ok p) :
    p.toJson.NamesOnce := by
  obtain ⟨x1, h1, h⟩ := bind_eq_ok h
  obtain ⟨x2, h2, h⟩ := bind_eq_ok h
  obtain ⟨x3, h3, h⟩ := bind_eq_ok h
  obtain ⟨x4, h4, h⟩ := bind_eq_ok h
  obtain ⟨x5, h5, h⟩ := bind_eq_ok h
  obtain ⟨x6, h6, h⟩ := bind_eq_ok h
  obtain ⟨x7, h7, h⟩ := bind_eq_ok h
  obtain ⟨x8, -, h⟩ := bind_eq_ok h
  obtain ⟨x9, -, h⟩ := bind_eq_ok h
  cases h
  simp [toJson, Table.keys, Json.ofFloat, hv.memberD (by simp) h1, hv.memberD (by simp) h2,
    hv.memberD (by simp) h3, hv.memberD (by simp) h4, hv.memberD (by simp) h5,
    hv.memberD (by simp) h6, hv.memberD (by simp) h7]

theorem Logging.namesOnce {l : Logging} (hv : v.NamesOnce) (h : Logging.ofJson v = .ok l) :
    l.toJson.NamesOnce := by
  obtain ⟨x1, h1, h⟩ := bind_eq_ok h
  obtain ⟨x2, h2, h⟩ := bind_eq_ok h
  obtain ⟨x3, h3, h⟩ := bind_eq_ok h
  cases h
  simp [toJson, Table.keys, hv.memberD (by simp) h1, hv.memberD (by simp) h2,
    hv.memberD (by simp) h3]

theorem SyncEntry.namesOnce {e : SyncEntry} (hv : v.NamesOnce) (h : SyncEntry.ofJson v = .ok e) :
    e.toJson.NamesOnce := by
  obtain ⟨x1, h1, h⟩ := bind_eq_ok h
  obtain ⟨x2, h2, h⟩ := bind_eq_ok h
  obtain ⟨x3, h3, h⟩ := bind_eq_ok h
  obtain ⟨x4, h4, h⟩ := bind_eq_ok h
  obtain ⟨x5, h5, h⟩ := bind_eq_ok h
  obtain ⟨x6, h6, h⟩ := bind_eq_ok h
  obtain ⟨x7, h7, h⟩ := bind_eq_ok h
  cases h
  simp [toJson, Table.keys, hv.member h1, hv.member h2, hv.memberD (by simp) h3,
    hv.memberD (by simp) h4, hv.memberD (by simp) h5, hv.memberD (by simp) h6,
    hv.memberD (by simp) h7]

theorem Drift.namesOnce {d : Drift} (hv : v.NamesOnce) (h : Drift.ofJson v = .ok d) :
    d.toJson.NamesOnce := by
  obtain ⟨x1, h1, h⟩ := bind_eq_ok h
  obtain ⟨x2, h2, h⟩ := bind_eq_ok h
  obtain ⟨x3, h3, h⟩ := bind_eq_ok h
  obtain ⟨x4, h4, h⟩ := bind_eq_ok h
  obtain ⟨list, hlist, h⟩ := bind_eq_ok h
  obtain ⟨items, hitems, h⟩ := bind_eq_ok h
  obtain ⟨entries, hentries, h⟩ := bind_eq_ok h
  obtain ⟨x5, h5, h⟩ := bind_eq_ok h
  obtain ⟨x6, -, h⟩ := bind_eq_ok h
  obtain ⟨x7, -, h⟩ := bind_eq_ok h
  cases h
  have hsync : ∀ e ∈ entries, e.toJson.NamesOnce := by
    intro e he
    obtain ⟨x, hx, hread⟩ := exists_left_of_forall₂ (mapM_eq_ok hentries) he
    exact SyncEntry.namesOnce ((hv.memberD (by simp) hlist).items hitems x hx) hread
  simpa [toJson, Table.keys, Json.ofInt, hv.memberD (by simp) h1, hv.memberD (by simp) h2,
    hv.memberD (by simp [Table.keys]) h3, hv.memberD (by simp) h4, hv.memberD (by simp) h5]
    using hsync

/-- The lists under the names of an object. -/
theorem namesOnce_rowAxes {fields : Table Json} {rows : Table (List Json)}
    (hfields : Json.FieldsOnce fields)
    (h : List.Forall₂ (fun p row => (do return (p.1, ← p.2.items)) = Except.ok (ε := Mismatch) row)
      fields rows) : (Json.obj (Table.mapValues Json.arr rows)).NamesOnce := by
  have hkeys : Table.keys rows = Table.keys fields := by
    clear hfields
    induction h with
    | nil => rfl
    | cons hrow _ ih =>
      obtain ⟨items, -, hrow⟩ := bind_eq_ok hrow
      cases hrow
      exact congrArg _ ih
  have hitems : ∀ p ∈ rows, ∀ x ∈ p.2, x.NamesOnce := by
    intro row hrow
    obtain ⟨p, hp, hread⟩ := exists_left_of_forall₂ h hrow
    obtain ⟨items, hitems, hread⟩ := bind_eq_ok hread
    cases hread
    exact (hfields.2 p hp).items hitems
  refine .obj ?_ fun p hp => ?_
  · have hnames : Table.keys (Table.mapValues Json.arr rows) = Table.keys rows := by
      simp [Table.keys, Table.mapValues]
    rw [hnames, hkeys]
    exact hfields.1
  · obtain ⟨row, hrow, rfl⟩ := List.mem_map.mp hp
    exact .arr (hitems row hrow)

theorem Layout.namesOnce {l : Layout} (hv : v.NamesOnce) (h : Layout.ofJson v = .ok l) :
    l.toJson.NamesOnce := by
  obtain ⟨modes, hmodes, h⟩ := bind_eq_ok h
  obtain ⟨object, hobject, h⟩ := bind_eq_ok h
  obtain ⟨fields, hfields, h⟩ := bind_eq_ok h
  obtain ⟨rows, hrows, h⟩ := bind_eq_ok h
  obtain ⟨x, -, h⟩ := bind_eq_ok h
  obtain ⟨constants, -, h⟩ := bind_eq_ok h
  cases h
  have hrowAxes : (Json.obj (Table.mapValues Json.arr rows)).NamesOnce := by
    have hobject := hv.memberD (by simp [Table.keys]) hobject
    cases object with
    | obj fs =>
      cases hfields
      exact namesOnce_rowAxes hobject.fields (mapM_eq_ok hrows)
    | _ => cases hfields
  refine .obj (by simp [Table.keys]) ?_
  simp only [List.forall_mem_cons]
  exact ⟨hv.memberD (by simp) hmodes, hrowAxes, constants.namesOnce, by simp⟩

theorem namesOnce {root : Path} {c : Config} (hv : v.NamesOnce) (h : ofJson root v = .ok c) :
    c.toJson.NamesOnce := by
  obtain ⟨x1, h1, h⟩ := bind_eq_ok h
  obtain ⟨paths, hpaths, h⟩ := bind_eq_ok h
  obtain ⟨x2, h2, h⟩ := bind_eq_ok h
  obtain ⟨parsing, hparsing, h⟩ := bind_eq_ok h
  obtain ⟨x3, h3, h⟩ := bind_eq_ok h
  obtain ⟨layout, hlayout, h⟩ := bind_eq_ok h
  obtain ⟨x4, h4, h⟩ := bind_eq_ok h
  obtain ⟨drift, hdrift, h⟩ := bind_eq_ok h
  obtain ⟨x5, h5, h⟩ := bind_eq_ok h
  obtain ⟨logging, hlogging, h⟩ := bind_eq_ok h
  cases h
  have hempty : (Json.obj []).NamesOnce := by simp [Table.keys]
  refine .obj (by simp [Table.keys]) ?_
  simp only [List.forall_mem_cons]
  exact ⟨Paths.namesOnce (hv.memberD hempty h1) hpaths,
    Parsing.namesOnce (hv.memberD hempty h2) hparsing,
    Layout.namesOnce (hv.memberD hempty h3) hlayout,
    Drift.namesOnce (hv.memberD hempty h4) hdrift,
    Logging.namesOnce (hv.memberD hempty h5) hlogging, by simp⟩

/-! ### Equality -/

/-- Two configurations are equal: the constants of layout by value, and all else is the same. -/
def Equal (c d : Config) : Prop :=
  c = { d with layout := { d.layout with constants := c.layout.constants } } ∧
    List.Forall₂ (fun m n => m == n) c.layout.constants.values d.layout.constants.values

theorem Layout.same_toJson {l : Layout} {k : Matrix.Constants Number} (hn : l.toJson.NamesOnce)
    (hnan : l.toJson.NanFree) (hk : k.toJson.same l.constants.toJson) :
    Json.same { l with constants := k }.toJson l.toJson := by
  have hself := Json.same_self_of_mem _ hn.fields.2 (Json.nanFree_obj_iff.mp hnan)
  simp only [List.forall_mem_cons] at hself
  obtain ⟨hmodes, hrows, -⟩ := hself
  refine Json.same_of_forall₂ hn.fields.1 ?_
  exact .cons ⟨rfl, hmodes⟩ (.cons ⟨rfl, hrows⟩ (.cons ⟨rfl, hk⟩ .nil))

theorem Equal.same_toJson {c d : Config} (h : c.Equal d) (hn : d.toJson.NamesOnce)
    (hnan : d.toJson.NanFree) : c.toJson.same d.toJson := by
  obtain ⟨hrest, hconstants⟩ := h
  have hlayout := Layout.same_toJson (hn.fields.2 ("matrix", d.layout.toJson) (by simp))
    (Json.nanFree_obj_iff.mp hnan ("matrix", d.layout.toJson) (by simp))
    (Matrix.Constants.same_toJson hconstants)
  have hself := Json.same_self_of_mem _ hn.fields.2 (Json.nanFree_obj_iff.mp hnan)
  simp only [List.forall_mem_cons] at hself
  obtain ⟨hpaths, hparsing, -, hdrift, hlogging, -⟩ := hself
  rw [hrest]
  refine Json.same_of_forall₂ hn.fields.1 ?_
  exact .cons ⟨rfl, hpaths⟩ (.cons ⟨rfl, hparsing⟩ (.cons ⟨rfl, hlayout⟩
    (.cons ⟨rfl, hdrift⟩ (.cons ⟨rfl, hlogging⟩ .nil))))

/-- The root is the given one, and the constants have floats. -/
theorem isFloat_of_ofJson {root : Path} {c : Config} (h : ofJson root v = .ok c) :
    c.root = root ∧ ∀ n ∈ c.layout.constants.values, n.isFloat := by
  obtain ⟨x1, -, h⟩ := bind_eq_ok h
  obtain ⟨paths, -, h⟩ := bind_eq_ok h
  obtain ⟨x2, -, h⟩ := bind_eq_ok h
  obtain ⟨parsing, -, h⟩ := bind_eq_ok h
  obtain ⟨x3, -, h⟩ := bind_eq_ok h
  obtain ⟨layout, hlayout, h⟩ := bind_eq_ok h
  obtain ⟨x4, -, h⟩ := bind_eq_ok h
  obtain ⟨drift, -, h⟩ := bind_eq_ok h
  obtain ⟨x5, -, h⟩ := bind_eq_ok h
  obtain ⟨logging, -, h⟩ := bind_eq_ok h
  cases h
  refine ⟨rfl, ?_⟩
  obtain ⟨modes, -, h⟩ := bind_eq_ok hlayout
  obtain ⟨object, -, h⟩ := bind_eq_ok h
  obtain ⟨fields, -, h⟩ := bind_eq_ok h
  obtain ⟨rows, -, h⟩ := bind_eq_ok h
  obtain ⟨x, -, h⟩ := bind_eq_ok h
  obtain ⟨constants, hconstants, h⟩ := bind_eq_ok h
  cases h
  exact Matrix.Constants.isFloat_of_ofJson hconstants

theorem isValue_of_nanFree {c : Config} (h : c.toJson.NanFree) :
    ∀ n ∈ c.layout.constants.values, n.isValue := by
  have hlayout : c.layout.toJson.NanFree :=
    Json.nanFree_obj_iff.mp h ("matrix", c.layout.toJson) (by simp)
  have hconstants : c.layout.constants.toJson.NanFree :=
    Json.nanFree_obj_iff.mp hlayout ("layout", c.layout.constants.toJson) (by simp)
  simpa [Matrix.Constants.toJson, Matrix.Constants.values] using hconstants

/-- A configuration that is written and read again is the same, and so is what is written of it. -/
theorem exists_reloaded {root : Path} {c : Config} (hv : v.NamesOnce) (h : ofJson root v = .ok c)
    (hnan : c.toJson.NanFree) :
    ∃ d, ofJson root c.toJson = .ok d ∧ d.Equal c ∧ d.toJson.same c.toJson := by
  obtain ⟨rfl, hfloats⟩ := isFloat_of_ofJson h
  refine ⟨_, ofJson_toJson hfloats, ?_⟩
  have hequal : Equal { c with layout := { c.layout with
      constants := c.layout.constants.map Number.asFloat } } c := by
    refine ⟨rfl, ?_⟩
    change List.Forall₂ _ (c.layout.constants.values.map Number.asFloat) _
    refine List.forall₂_map_left_iff.mpr (List.forall₂_same.mpr fun n hn => ?_)
    exact Number.asFloat_beq (hfloats n hn) (isValue_of_nanFree hnan n hn)
  exact ⟨hequal, hequal.same_toJson (namesOnce hv h) hnan⟩

/-- A file with a null, rows, an overridden constant, a severity and a value to compare. -/
def exampleFile : Json :=
  .obj [("paths", .obj [("projectCss", .null), ("componentSources", .arr ["src/*.tsx"])]),
    ("matrix", .obj [("rowAxes", .obj [("Button", .arr ["size"])]),
      ("layout", .obj [("gapX", .ofFloat 8.5)])]),
    ("drift", .obj [("severityOverrides", .obj [("DRIFT.HEX_COLOR", "soft")]),
      ("sync", .arr [.obj [("name", "HEIGHTS"), ("file", "gen.py"), ("component", .null)]])])]

def exampleConfig : Config where
  paths := { projectCss := .null, componentSources := .arr ["src/*.tsx"] }
  layout := {
    rowAxes := [("Button", ["size"])]
    constants := { Matrix.Constants.default with gapX := .float 8.5 } }
  drift := {
    severityOverrides := .obj [("DRIFT.HEX_COLOR", "soft")]
    sync := [{ file := "gen.py", name := "HEIGHTS" }] }
  root := .ofString "/project"

theorem exists_reloaded_example :
    exampleFile.NamesOnce ∧ ofJson (.ofString "/project") exampleFile = .ok exampleConfig ∧
      exampleConfig.toJson.NanFree ∧
      ∃ d, ofJson (.ofString "/project") exampleConfig.toJson = .ok d ∧ d.Equal exampleConfig ∧
        d.toJson.same exampleConfig.toJson := by
  have hnames : exampleFile.NamesOnce := by simp [exampleFile, Table.keys, Json.ofFloat]
  have hread : ofJson (.ofString "/project") exampleFile = .ok exampleConfig := rfl
  have hfloats : Css.defaultRootFontSize ≠ .nan ∧ (8.5 : Float) ≠ .nan ∧ (0.6 : Float) ≠ .nan := by
    decide +kernel
  have hnan : exampleConfig.toJson.NanFree := by
    simpa [exampleConfig, toJson, Paths.toJson, Parsing.toJson, Layout.toJson, Drift.toJson,
      Logging.toJson, SyncEntry.toJson, Matrix.Constants.toJson, Matrix.Constants.default,
      Json.ofFloat, Json.ofInt, Json.ofStrings, Table.mapValues, Number.isValue] using hfloats
  exact ⟨hnames, hread, hnan, exists_reloaded hnames hread hnan⟩

end Config

end DesignTokens
