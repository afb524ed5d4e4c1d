import DesignTokens.Project.Action
import DesignTokens.Project.Inputs
import DesignTokens.Scene.Data
import DesignTokens.Theme.Data

/-!
The outputs of a run: the theme data file, the scene document and the configuration file. Each is
written last, when nothing else can fail any more.
-/
namespace DesignTokens

/-- The theme data file's content. The opacity modifiers are left out where there are none. -/
def Theme.Snapshot.artifact (s : Theme.Snapshot) (stamp : String) (ms : List OpacityModifier) :
    Json :=
  .obj ([("_generated", .str stamp), ("_sources", .arr s.sources)] ++ s.layers ++
    if ms.isEmpty then [] else [("opacityModifiers", .arr (ms.map OpacityModifier.toJson))])

namespace Workspace

variable (w : Workspace)

/-- Writes a value as a file of its own. -/
def saveJson (p : Path) (v : Json) : Except Failure Workspace :=
  (w.save p (v.pretty ++ "\n")).mapError (.file p)

/-- Where an output goes: to the path that is asked for, or to the configured one. -/
def target? (c : Config) (wanted : Option Path) (configured : Json) :
    Except Failure (Option Path) :=
  match wanted with
  | some p => .ok (some p)
  | none => (c.path? configured).mapError .mismatch

/-- The generator of a configuration. -/
def generator (c : Config) (s : Theme.Snapshot) : Except Failure (Matrix.Generator Number) := do
  let settings ← c.parsing.settings.mapError .mismatch
  let modes ← c.layout.modes.items.mapError .mismatch
  return .ofTheme s.computed settings c.layout.constants (modes.map Json.plainText)
    (Table.mapValues (fun axes => axes.map Json.plainText) c.layout.rowAxes)

/-- The matrices of the components that are asked for. -/
def matrices (c : Config) (s : Theme.Snapshot) (r : Registry) (names : List String) :
    Except Failure (List (Matrix Number)) := do
  let g ← generator c s
  (← (r.select names).mapError .component).mapM fun name => do
    (g.expand (← (r.require name).mapError .component)).mapError .matrix

/-- What a generation makes. -/
structure Generation where
  matrices : List (Matrix Number)
  emission : Emission Number

/-- Writes a configuration into a folder that is there. -/
def writeConfig (c : Config) (p : Path) : Logged Workspace := do
  let w ← Logged.ofExcept (.file p) (w.write p (Text.encodeUtf8 c.toJson.pretty))
  Logged.info "design_sync" ("Saved design-sync config to " ++ p.text)
  return w

end Workspace

namespace Action

open Workspace (Generation target? generator matrices)

/-- Saves a value as a file of its own. A folder that is made for it stays even when the file cannot
be written. -/
def save (p : Path) (v : Json) : Action Unit := do
  change fun w => (w.makeFolder p.parent).mapError (.file p)
  if let some digits := v.overlong? then throw (.mismatch (.longInteger digits))
  change fun w => w.saveJson p v

/-- Writes an output and returns where it is; `nowhere` is the failure where it goes nowhere. -/
def output (logger what : String) (nowhere : Failure) (target : Option Path) (v : Json) :
    Action Path := do
  let some p := target | throw nowhere
  save p v
  log (Logged.info logger ("Wrote " ++ what ++ " to " ++ p.text))
  return p

/-- The snapshot that is given, or else the one of the configured style sheets. -/
def snapshot (c : Config) (given : Option Theme.Snapshot) : Action Theme.Snapshot :=
  match given with
  | some s => pure s
  | none => look fun w => w.configuredTheme c

/-- Writes the data of a theme, and returns where they are. -/
def writeTheme (c : Config) (given : Option Theme.Snapshot) (stamp : String)
    (wanted : Option Path) : Action Path := do
  let s ← snapshot c given
  let target ← liftM (target? c wanted c.paths.themeData)
  let modifiers ← look fun w => liftM (w.opacityModifiers c)
  output "design_sync.theme" "theme data" (.mismatch (.notPath c.paths.themeData.typeName)) target
    (s.artifact stamp modifiers)

/-- Generates the components that are asked for. -/
def generate (c : Config) (names : List String) : Action Generation := do
  let s ← look fun w => w.configuredTheme c
  let r ← look fun w => w.configuredRegistry c
  let ms ← liftM (matrices c s r names)
  let emission ← liftM ((Emission.ofMatrices c.layout.constants ms).mapError Failure.scene)
  -- A height that is lost stays lost down to the end of the scene.
  if emission.endY.isOverflow then throw (.matrix .lost)
  let cells := ms.foldl (fun n m => n + m.grid.cells.length) 0
  log (Logged.note .info "design_sync.matrix" ("Generated " ++ toString ms.length ++
    " components (" ++ toString cells ++ " cells)") [("cell_count", .ofNat cells)])
  return ⟨ms, emission⟩

/-- Generates components into the scene document, and returns where it is. -/
def writeDocument (c : Config) (names : List String) (wanted : Option Path) :
    Action (Generation × Path) := do
  let g ← generate c names
  let target ← liftM (target? c wanted c.paths.output)
  let p ← output "design_sync.scene"
    ("scene document with " ++ toString g.emission.scene.size ++ " nodes") .noOutput target
    g.emission.scene.toJson
  return (g, p)

end Action

end DesignTokens
