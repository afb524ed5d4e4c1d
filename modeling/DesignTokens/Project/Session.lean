import DesignTokens.Project.Command
import DesignTokens.Project.Guard
import DesignTokens.Project.Outputs
import DesignTokens.Text.Case

/-!
Running a command line in a workspace. What a run shows and what it leaves in the workspace follow
from the workspace, the command line and the environment; a run that fails leaves no output behind,
only its log and perhaps the folder that an output was to stand in.
-/
namespace DesignTokens

/-- What a run takes from outside its workspace. -/
structure Environment where
  /-- The configuration file that the environment names. -/
  config : Option String := none
  /-- The time of the run, as generated files and logs record it. -/
  stamp : String := ""
  deriving Repr

/-- What a run shows, and what it leaves. -/
structure Outcome where
  workspace : Workspace
  exitCode : Int := 0
  stdout : String := ""
  stderr : String := ""
  /-- A failure that is not told to the user. -/
  untold : Option Failure := none
  deriving Repr

namespace Outcome

/-- A run that ends with a complaint. -/
def refused (w : Workspace) (exitCode : Int) (complaint : String) : Outcome :=
  { workspace := w, exitCode, stderr := "Error: " ++ complaint ++ "\n" }

/-- A run that ends in a failure; `shown` is what it has shown before. -/
def failed (w : Workspace) (stdout shown : String) (f : Failure) : Outcome :=
  match f.diagnostic? with
  | some d => { workspace := w, exitCode := d.exitCode, stdout, stderr := shown ++ d.plain ++ "\n" }
  | none => { workspace := w, exitCode := 1, stdout, stderr := shown, untold := some f }

end Outcome

/-- Where the log of a run goes. -/
structure LogTarget where
  /-- Entries below this level are not shown. -/
  threshold : Log.Level
  file : Option Path
  structured : Bool
  deriving Repr

namespace LogTarget

/-- The level of the configuration; a quiet run shows errors only, a verbose one everything. -/
def levelOf (common : CommonOptions) (level : Json) : Except Failure (Option Log.Level) :=
  if common.quiet then .ok (some .error)
  else if common.verbose then .ok (some .debug)
  else match level with
    | .str name => .ok (Log.Level.ofName? (String.ofList (name.toList.flatMap Text.titleChar)))
    | v => .error (.mismatch (.notObject v.typeName "upper"))

/-- The log file, made empty if it is not there. -/
def touch (w : Workspace) (p : Path) : Except Failure Workspace :=
  if w.isFile p then .ok w else (w.write p []).mapError fun _ => .logging

/-- The log of a configuration, and the workspace with its file. -/
def ofConfig (w : Workspace) (common : CommonOptions) (c : Config) :
    Except Failure (Workspace × LogTarget) := do
  let file ← (c.path? c.logging.file).mapError .mismatch
  let level ← levelOf common c.logging.level
  let w ← match file with
    | some p => (w.makeFolder p.parent).mapError (.file p.parent)
    | none => pure w
  let some threshold := level | throw .logging
  let w ← match file with
    | some p => touch w p
    | none => pure w
  return (w, ⟨threshold, file, c.logging.format matches .str "json"⟩)

/-- The entries that are shown. -/
def shown (t : LogTarget) (entries : List Log.Entry) : String :=
  String.join ((entries.filter fun e => decide (t.threshold ≤ e.level)).map fun e =>
    e.consoleLine ++ "\n")

/-- The workspace after the entries have been added to the log file. -/
def record (t : LogTarget) (stamp : String) (entries : List Log.Entry) (w : Workspace) :
    Workspace :=
  match t.file with
  | none => w
  | some p =>
    let lines := entries.map fun e =>
      (if t.structured then e.jsonLine stamp else e.textLine stamp) ++ "\n"
    match w.bytes p with
    | .error _ => w
    | .ok bytes => match w.write p (bytes ++ Text.encodeUtf8 (String.join lines)) with
      | .ok w => w
      | .error _ => w

end LogTarget

/-- What a command prints, and the failure that it ends in after all. -/
structure Finished where
  stdout : String
  failure : Option Failure := none

namespace Command

/-- A text, unless the run is quiet. -/
def unlessQuiet (quiet : Bool) (text : String) : String := if quiet then "" else text

def runBuild (stamp : String) (quiet : Bool) (c : Config) (output : Option String) :
    Action Finished := do
  let s ← Action.look fun w => w.configuredTheme c
  let target ← Action.writeTheme c (some s) stamp (output.map Path.ofString)
  let scales := s.computed
  return ⟨unlessQuiet quiet ("Wrote theme data to " ++ target.text ++ "\n  spacing base " ++
    Decimal.generalText scales.spacing.baseUnitPx ++ "px, " ++
    toString scales.borderRadius.length ++ " radii, " ++
    toString scales.fontSize.length ++ " font sizes, " ++
    toString scales.shadows.length ++ " shadows\n"), none⟩

/-- The line of a matrix. -/
def matrixLine (m : Matrix Number) : String :=
  "  " ++ m.component ++ ": " ++ toString m.grid.cells.length ++ " variants (" ++
    toString m.grid.rows.length ++ "x" ++ toString m.grid.cols.length ++ ", " ++
    toString m.sections.length ++ " modes)\n"

def runGenerate (quiet : Bool) (c : Config) (name output : Option String) :
    Action Finished := do
  let names := (name.filter (· != "")).toList
  let (g, target) ← Action.writeDocument c names (output.map Path.ofString)
  return ⟨unlessQuiet quiet (String.join (g.matrices.map matrixLine) ++ "Wrote " ++
    toString g.matrices.length ++ " component(s) to " ++ target.text ++ "\n"), none⟩

/-- The guard of a configuration, with what its sync rules need. -/
def guardOf (w : Workspace) (c : Config) (withSync : Bool) : Logged Drift.Guard := do
  if withSync && (!c.drift.sync.isEmpty || c.drift.checkThemeData.truthy) then
    let s ← w.configuredTheme c
    let r ← if c.drift.sync.any fun e => e.kind matches .str "map" then
        some <$> w.configuredRegistry c
      else pure none
    liftM (Drift.Guard.ofConfig c (some s) r)
  else liftM (Drift.Guard.ofConfig c none none)

def runCheck (w : Workspace) (quiet : Bool) (c : Config) (asJson withSync : Bool)
    (files : List String) : Logged Finished := do
  let guard ← guardOf w c withSync
  let paths ← if files.isEmpty then liftM (w.sources c.root c.drift.sources)
    else pure (files.map Path.ofString)
  let report ← guard.check w paths
  for v in report.soft do
    Logged.warn "design_sync" (v.file ++ ": " ++ v.ruleId ++ " " ++ v.message)
  let hard := report.hard.length
  let text := if asJson then report.decision.pretty ++ "\n"
    else unlessQuiet (quiet && hard = 0) (report.text false)
  return ⟨text, if hard = 0 then none else some (.drift hard)⟩

/-- A command under a configuration. -/
def run (stamp : String) (quiet : Bool) (c : Config) : Command → Action Finished
  | .buildTheme output => runBuild stamp quiet c output
  | .generate name _ output => runGenerate quiet c name output
  | .checkDrift asJson withSync files =>
    Action.look fun w => runCheck w quiet c asJson withSync files

/-- Whether a command names its components in exactly one way. -/
def isDefinite : Command → Bool
  | .generate name everything _ => (name.filter (· != "")).isSome != everything
  | _ => true

end Command

namespace Workspace

def version : String := "1.0.0"

def usage : String :=
  "Usage: [--version] [--help] build-theme | generate [NAME | --all] | check-drift [FILES]...\n"

/-- Runs a command with its options. -/
def runCommand (w : Workspace) (env : Environment) (common : CommonOptions) (command : Command) :
    Outcome :=
  if !command.isDefinite then .refused w 1 "pass exactly one of NAME or --all"
  else if common.quiet && common.verbose then
    .refused w 1 "--quiet and --verbose are mutually exclusive"
  else match w.config w.here (common.config.map Path.ofString) env.config with
    | .error f => .failed w "" "" f
    | .ok c => match LogTarget.ofConfig w common c with
      | .error f => .failed w "" "" f
      | .ok (w, log) =>
        let (result, left) := (command.run env.stamp common.quiet c).on ⟨w, []⟩
        let shown := log.shown left.entries
        let w := log.record env.stamp left.entries left.workspace
        match result with
        | .error f => .failed w "" shown f
        | .ok done => match done.failure with
          | some f => .failed w done.stdout shown f
          | none => { workspace := w, stdout := done.stdout, stderr := shown }

/-- Runs a command line. -/
def run (w : Workspace) (env : Environment) (args : List String) : Outcome :=
  match Request.parse w args with
  | .error f => .refused w 2 f.message
  | .ok .help => { workspace := w, stdout := usage }
  | .ok .version => { workspace := w, stdout := "cli, version " ++ version ++ "\n" }
  | .ok (.run common command) => w.runCommand env common command

end Workspace

end DesignTokens
