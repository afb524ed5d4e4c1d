import DesignTokens.Drift.Sync
import DesignTokens.File.Search
import DesignTokens.Matrix.Expand
import DesignTokens.Registry.Load
import DesignTokens.Scene.Emission
import DesignTokens.Theme.Spec

/-!
Failures of a run. A failure that its user can mend has a diagnostic; the others, of values and files
that are not what their use asks for, only have a family.
-/
namespace DesignTokens

/-- Why a run ends early. -/
inductive Failure where
  | theme (f : Theme.Fault)
  | registry (source : String) (f : Registry.Fault)
  | component (u : UnknownName)
  | matrix (f : Matrix.Fault Number)
  | scene (u : Scene.UnknownNode)
  | sync (f : Drift.SyncFault)
  /-- A file that cannot be read or written, or whose bytes are no text. -/
  | file (path : Path) (f : FileFault)
  | search (f : SearchFault)
  /-- A value that is not what its use asks for. -/
  | mismatch (m : Json.Mismatch)
  | absentConfig (path : Path)
  | malformedConfig (path : Path) (message : String)
  | configNotObject (path : Path)
  | absentStyleSheet (label : String) (path : Path)
  | absentThemeData (path : Path)
  | malformedThemeData (path : Path) (message : String)
  | noOutput
  /-- Violations that fail the check. -/
  | drift (hard : Nat)
  /-- A log that cannot be set up. -/
  | logging
  deriving Repr

/-- The families of failures. -/
inductive FailureKind where
  | mismatch (kind : Json.MismatchKind)
  | division
  | index
  | encoding
  | absentFile
  | folder
  | notFolder
  | fileExists
  | unsupported
  deriving DecidableEq, Repr

namespace FileFault

def kind : FileFault → FailureKind
  | .missing => .absentFile
  | .folder => .folder
  | .notFolder => .notFolder
  | .taken => .fileExists
  | .undecodable _ => .encoding

end FileFault

namespace Failure

/-- What the user of a run is told. -/
def diagnostic? : Failure → Option Diagnostic
  | .theme f => f.diagnostic?
  | .registry source f => f.diagnostic? source
  | .component u => some u.diagnostic
  | .matrix f => f.diagnostic?
  | .sync f => f.diagnostic?
  | .absentConfig path => some <|
    .configuration ("Config file not found: " ++ path.text) path.text none
      (some "Create design-sync.config.json or drop --config")
  | .malformedConfig path message => some <|
    .configuration ("Invalid JSON in " ++ path.text ++ ": " ++ message) path.text none
      (some "Fix the JSON syntax of the config file")
  | .configNotObject path => some <|
    .configuration "Config root must be a JSON object" path.text (some "\x7b...\x7d") none
  | .absentStyleSheet label path => some <|
    .configuration (label ++ " not found: " ++ path.text) path.text none
      (some "Check paths.frameworkCss / paths.projectCss in the config")
  | .absentThemeData path => some <|
    .configuration ("Theme data file not found: " ++ path.text) path.text none
      (some "Run 'design-sync build-theme' first")
  | .malformedThemeData path message => some <|
    .configuration ("Malformed theme data file " ++ path.text ++ ": " ++ message) path.text
      (some "\x7btailwind: \x7b...\x7d, computed: \x7b...\x7d\x7d")
      (some "Regenerate it with 'design-sync build-theme'")
  | .noOutput => some <| .configuration "No output path configured" none (some "paths.output") none
  | .drift hard => some <| .driftFound (.ofNat hard)
  | .scene _ | .file .. | .search _ | .mismatch _ | .logging => none

/-- The family of a failure; of a failure with a diagnostic it is not asked. -/
def kind : Failure → FailureKind
  | .theme .zeroRoot => .division
  | .registry _ .undecodable => .encoding
  | .matrix _ => .mismatch .range
  | .sync (.mismatch m) => .mismatch m.kind
  | .file _ f => f.kind
  | .search .absolute => .unsupported
  | .search .noParts => .index
  | .mismatch m => .mismatch m.kind
  | _ => .mismatch .value

end Failure

end DesignTokens
