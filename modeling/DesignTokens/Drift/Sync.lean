import DesignTokens.Config
import DesignTokens.Decimal.Rounding
import DesignTokens.Drift.Embedded
import DesignTokens.Drift.Violation
import DesignTokens.Registry.Lookup
import DesignTokens.Theme.Data
import DesignTokens.Utility.Parse

/-!
Sync rules. A rule belongs to one file and holds what the file has to say: a number of the theme, the
numbers that a component's class strings stand for, or the theme data themselves. The data in a file
are stale in a layer where they differ from a fresh snapshot, numbers being compared after rounding
to six places.
-/
namespace DesignTokens.Drift

open Json (Mismatch)

/-! ### Stale theme data -/

mutual

/-- A value whose numbers are floats of six places. -/
def normalize : Json → Except Mismatch Json
  | .num n => match n.toFloat? with
    | some x => .ok (.ofFloat (Decimal.roundPlaces x 6))
    | none => .error .hugeInt
  | .arr items => (normalizeItems items).map .arr
  | .obj fields => (normalizeFields fields).map .obj
  | v => .ok v

def normalizeItems : List Json → Except Mismatch (List Json)
  | [] => .ok []
  | x :: xs => do return (← normalize x) :: (← normalizeItems xs)

def normalizeFields : Table Json → Except Mismatch (Table Json)
  | [] => .ok []
  | (k, x) :: fs => do return (k, ← normalize x) :: (← normalizeFields fs)

end

/-- Whether two values agree after normalization. -/
def agree (found expected : Json) : Except Mismatch Bool := do
  return Json.same (← normalize found) (← normalize expected)

/-- The layers of a snapshot from which the data differ. -/
def staleLayers (data layers : Table Json) : Except Mismatch (List String) := do
  let stale ← layers.filterM fun (name, layer) => do
    return !(← agree ((Table.get? name data).getD .null) layer)
  return Table.keys stale

/-! ### Rules -/

/-- What a file has to agree with. -/
inductive Expectation where
  /-- A name is assigned the value at a path of the snapshot. -/
  | value (name snapshotPath : String) (expected : Float)
  /-- A name is assigned a map; `origin` says where the map comes from. -/
  | map (name : String) (expected : Table Float) (origin : String)
  /-- The file holds the layers of a snapshot. -/
  | themeData (layers : Table Json)
  deriving Repr

structure SyncRule where
  target : Path
  expectation : Expectation
  deriving Repr

/-- A mismatch and the line where it shows. -/
structure Finding where
  line : Option Nat
  message : String
  deriving DecidableEq, Repr

/-- Two numbers that differ by less than a file is expected to keep. -/
def close (a b : Float) : Bool :=
  a == b || (Decimal.isFinite a && Decimal.isFinite b &&
    ((b - a).abs ≤ (1e-9 * b).abs || (b - a).abs ≤ (1e-9 * a).abs || (b - a).abs ≤ 1e-6))

open Decimal (generalText)

/-- The keys of `expected` that `actual` lacks or gives another number. -/
def changedKeys (actual expected : Table Float) : List String :=
  expected.filterMap fun (key, e) => match Table.get? key actual with
    | none => some ("missing " ++ key ++ " (expected " ++ generalText e ++ ")")
    | some a => if close a e then none
      else some (key ++ " = " ++ generalText a ++ ", expected " ++ generalText e)

/-- The keys that `expected` does not have, sorted. -/
def unexpectedKeys (actual expected : Table Float) : List String :=
  (Text.sorted ((Table.keys actual).filter fun key => !Table.has key expected)).map
    ("unexpected key " ++ ·)

/-- How a map differs from what is expected. -/
def mapProblems (actual expected : Table Float) : List String :=
  changedKeys actual expected ++ unexpectedKeys actual expected

namespace Expectation

def ruleId : Expectation → String
  | .value name .. => "SYNC.VALUE." ++ name
  | .map name .. => "SYNC.MAP." ++ name
  | .themeData _ => "SYNC.THEME_DATA"

def remediation : Expectation → String
  | .value name path expected => "Set " ++ name ++ " to " ++ generalText expected ++
      " or read it from the theme data (" ++ path ++ ")"
  | .map name _ origin => "Update " ++ name ++ " to match " ++ origin ++
      ", or derive it by parsing the registry class strings"
  | .themeData _ => "Regenerate it with 'design-sync build-theme'"

/-- Compares an assigned number. -/
def compareValue (name path : String) (expected : Float) (text : String) : List Finding :=
  match assignedNumber? text name with
  | none => [⟨none, name ++ " is not assigned a numeric literal"⟩]
  | some (actual, line) =>
    if close actual expected then []
    else [⟨line, name ++ " = " ++ generalText actual ++ " but the theme snapshot " ++ path ++
      " is " ++ generalText expected⟩]

/-- Compares an assigned map; all that is wrong with it makes one finding. -/
def compareMap (name : String) (expected : Table Float) (origin text : String) : List Finding :=
  match assignedMap? text name with
  | none => [⟨none, name ++ " is not assigned a literal map"⟩]
  | some (actual, line) =>
    let problems := mapProblems actual expected
    if problems.isEmpty then []
    else [⟨line, name ++ " drifted from " ++ origin ++ ": " ++ String.intercalate "; " problems⟩]

/-- Compares theme data. -/
def compareThemeData (layers : Table Json) (text : String) : Except Mismatch (List Finding) :=
  match Json.read text with
  | .error f => match f.problem with
    | .longInteger digits => .error (.longInteger digits)
    | p => .ok [⟨Json.lineOf text f.offset, "Theme data is not valid JSON: " ++ p.text⟩]
  | .ok (.obj data) => do
    let stale ← staleLayers data layers
    return if stale.isEmpty then []
      else [⟨none, "Theme data is stale: " ++ String.intercalate ", " stale ++
        " differ from the CSS sources"⟩]
  | .ok _ => .ok [⟨none, "Theme data root is not an object"⟩]

/-- What a text has that does not agree. -/
def compare (e : Expectation) (text : String) : Except Mismatch (List Finding) :=
  match e with
  | .value name path expected => .ok (compareValue name path expected text)
  | .map name expected origin => .ok (compareMap name expected origin text)
  | .themeData layers => compareThemeData layers text

end Expectation

namespace SyncRule

def ruleId (r : SyncRule) : String := r.expectation.ruleId

def violation (r : SyncRule) (file : String) (f : Finding) : Violation where
  ruleId := r.ruleId
  file
  severity := .hard
  message := f.message
  remediation := r.expectation.remediation
  line := f.line.map Int.ofNat

/-- Whether a path, seen from the directory `here`, is the file of the rule. -/
def appliesTo (r : SyncRule) (here path : Path) : Bool := path.resolve here == r.target.resolve here

def evaluate (r : SyncRule) (here : Path) (path text : String) :
    Except Mismatch (List Violation) :=
  if r.appliesTo here (.ofString path) then do
    return (← r.expectation.compare text).map (r.violation path)
  else .ok []

/-- The violation of a file that is not there. -/
def missing (r : SyncRule) (path : String) : Violation :=
  r.violation path ⟨none, r.target.name ++ " not found"⟩

end SyncRule

/-- Why the configured rules cannot be built. -/
inductive SyncFault where
  | noSnapshotPath (entry : String)
  | notNumeric (entry path : String)
  | incompleteMap (entry : String)
  | noRegistry (entry : String)
  | unknownComponent (name : UnknownName)
  | noAxis (component prop : String) (axes : List String)
  | unknownKind (kind entry : String)
  /-- A value of the configuration is not of the kind that its use asks for. -/
  | mismatch (m : Mismatch)
  deriving Repr

def SyncFault.diagnostic? : SyncFault → Option Diagnostic
  | .noSnapshotPath entry => some <|
    complaint ("Sync entry " ++ entry ++ " needs a snapshotPath")
      (some "snapshotPath such as spacing.baseUnitPx")
  | .notNumeric entry path => some <|
    complaint ("Sync entry " ++ entry ++ ": " ++ path ++ " is not a numeric theme value")
      (some "a path such as spacing.baseUnitPx or fontSize.base")
  | .incompleteMap entry => some <|
    complaint ("Sync entry " ++ entry ++ " needs component, prop and styleProperty") none
  | .noRegistry entry => some <|
    complaint ("Sync entry " ++ entry ++ " needs the component registry") none
  | .unknownComponent name => some name.diagnostic
  | .noAxis component prop axes => some <|
    complaint (component ++ " has no variant prop " ++ prop)
      (some (if axes.isEmpty then "a prop with values" else String.intercalate ", " axes))
  | .unknownKind kind entry => some <|
    complaint ("Unknown sync entry kind " ++ kind ++ " for " ++ entry) (some "map or value")
  | .mismatch _ => none
where
  complaint (message : String) (expected : Option String) : Diagnostic :=
    .configuration message (some "drift.sync") expected none

def orMismatch {α : Type} (r : Except Mismatch α) : Except SyncFault α := r.mapError .mismatch

/-- The number at a path of a snapshot. -/
def expectedValue (s : Theme.Snapshot) (entry path : String) : Except SyncFault Float :=
  match (s.lookup path).bind Json.toFloat with
  | .ok x => .ok x
  | .error m => .error (match m.kind with
    | .name | .type | .value => .notNumeric entry path
    | _ => .mismatch m)

/-- The rule of an entry for a single value. -/
def valueRule (c : Config) (s : Theme.Snapshot) (e : Config.SyncEntry) :
    Except SyncFault SyncRule := do
  let entry := e.name.plainText
  if !e.snapshotPath.truthy then throw (.noSnapshotPath entry)
  let path ← match e.snapshotPath with
    | .str path => pure path
    | v => throw (.mismatch (.notObject v.typeName "split"))
  let expected ← expectedValue s entry path
  let target ← orMismatch (c.path e.file)
  return ⟨target, .value (← orMismatch e.name.toText) path expected⟩

/-- The numbers that an axis gives to a field of the style, under the keys of its values; a value
whose class string leaves the field unset has none. -/
def expectedMap (scales : Theme.Scales) (settings : Utility.Settings) (a : VariantAxis)
    (field : String) : Table Float :=
  Table.ofPairs (a.keys.filterMap fun key => do
    let classes ← a.classFor? key
    let n ← (Utility.parse scales settings classes).appearance.base.number? field
    return (key, ← n.toFloat?))

/-- The rule of an entry for a map. -/
def mapRule (c : Config) (s : Theme.Snapshot) (registry : Registry) (e : Config.SyncEntry) :
    Except SyncFault SyncRule := do
  let entry := e.name.plainText
  if !(e.component.truthy && e.prop.truthy && e.styleProperty.truthy) then
    throw (.incompleteMap entry)
  let component ← (registry.require (← orMismatch e.component.toText)).mapError .unknownComponent
  let some axis := component.axis? e.prop.plainText
    | throw (.noAxis e.component.plainText e.prop.shown (component.axes.map (·.name)))
  let property ← orMismatch e.styleProperty.toText
  let settings ← orMismatch c.parsing.settings
  let target ← orMismatch (c.path e.file)
  return ⟨target, .map (← orMismatch e.name.toText)
    (expectedMap s.computed settings axis (Text.snakeCase property))
    (component.name ++ "." ++ axis.name ++ " " ++ property)⟩

/-- The rule of an entry. -/
def entryRule (c : Config) (s : Theme.Snapshot) (registry : Option Registry)
    (e : Config.SyncEntry) : Except SyncFault SyncRule :=
  match e.kind with
  | .str "value" => valueRule c s e
  | .str "map" => match registry with
    | some r => mapRule c s r e
    | none => .error (.noRegistry e.name.plainText)
  | kind => .error (.unknownKind kind.shown e.name.plainText)

/-- The configured rules; without a snapshot there is nothing to compare with. -/
def syncRules (c : Config) (snapshot : Option Theme.Snapshot) (registry : Option Registry) :
    Except SyncFault (List SyncRule) := do
  let some s := snapshot | return []
  let themeData ← if c.drift.checkThemeData.truthy then do
      let target ← orMismatch (c.path c.paths.themeData)
      pure [⟨target, .themeData s.layers⟩]
    else pure []
  return themeData ++ (← c.drift.sync.mapM (entryRule c s registry))

end DesignTokens.Drift
