import DesignTokens.Opacity
import DesignTokens.Project.Logged

/-!
The inputs of a run: the configuration, the theme, the registry and the sources of components, as
they are read from a workspace.
-/
namespace DesignTokens

namespace Workspace

variable (w : Workspace)

/-- The text of a file. -/
def textOf (p : Path) : Except Failure String := (w.text p).mapError (.file p)

/-- The text of a file; `absent` is the failure where there is none. -/
def textOr (absent : Failure) (p : Path) : Except Failure String :=
  (w.text p).mapError fun f => if f = .missing then absent else .file p f

/-- The value of a JSON text; `malformed` makes a failure of the reason why it is none. -/
def jsonOf (malformed : String → Failure) (text : String) : Except Failure Json :=
  (Json.read text).mapError fun f => match f.problem with
    | .longInteger digits => .mismatch (.longInteger digits)
    | _ => malformed (f.message text)

def configFileName : String := "design-sync.config.json"

/-- The configuration in a file, rooted at the file's folder. -/
def configAt (p : Path) : Except Failure Config := do
  match ← jsonOf (.malformedConfig p) (← w.textOf p) with
  | .obj fields => (Config.ofJson (p.resolve w.here).parent (.obj fields)).mapError .mismatch
  | _ => .error (.configNotObject p)

/-- The configuration of a project: the file that is asked for, the file that the environment names,
the project's own file, or the defaults, whichever comes first. -/
def config (project : Path) (wanted : Option Path) (variableValue : Option String) :
    Except Failure Config :=
  match wanted with
  | some p => if w.has p then w.configAt p else .error (.absentConfig p)
  | none =>
    let named := (variableValue.filter (· != "")).map Path.ofString
    match (named.toList ++ [project.child configFileName]).find? w.has with
    | some p => w.configAt p
    | none => .ok { root := project }

/-- The text of a style sheet. -/
def styleSheet (label : String) (p : Path) : Except Failure String :=
  w.textOr (.absentStyleSheet label p) p

/-- The snapshot of a framework's style sheet and, if it is there, a project's. -/
def theme (spec : Theme.Spec) (framework : Path) (project : Option Path) :
    Logged Theme.Snapshot := do
  let frameworkCss ← liftM (w.styleSheet "framework theme CSS" framework)
  let projectCss ← match project with
    | none => pure none
    | some p =>
      if w.has p then some <$> liftM (w.styleSheet "project theme CSS" p)
      else do
        Logged.warn "design_sync.theme"
          ("Project theme " ++ p.text ++ " not found, using framework defaults")
        pure none
  Logged.ofExcept .theme (spec.build frameworkCss projectCss framework.text
    ((project.map Path.text).getD "project theme"))

/-- The snapshot of the configured style sheets. -/
def configuredTheme (c : Config) : Logged Theme.Snapshot := do
  let framework ← Logged.ofExcept .mismatch (c.path c.paths.frameworkCss)
  let project ← Logged.ofExcept .mismatch (c.path? c.paths.projectCss)
  w.theme { rootFontSize := c.parsing.rootFontSize } framework project

/-- The snapshot in a theme data file. -/
def themeData (p : Path) : Except Failure Theme.Snapshot := do
  let text ← (w.text p).mapError fun f => match f with
    | .missing => .absentThemeData p
    | .undecodable _ => .malformedThemeData p (f.message p)
    | _ => .file p f
  let data ← (Json.read text).mapError fun f => .malformedThemeData p (f.message text)
  (Theme.Snapshot.ofJson data).mapError fun m => match m.kind with
    | .name | .type | .value => .malformedThemeData p m.message
    | _ => .mismatch m

/-- The registry in a file. -/
def registry (p : Path) : Logged Registry := do
  let source := p.text
  let text ← liftM (w.textOr (.registry source (.absent source)) p)
  let registry ← Logged.ofExcept (.registry source) (Registry.ofText source text)
  Logged.info "design_sync.registry"
    ("Loaded " ++ toString registry.components.length ++ " components from " ++ source)
  return registry

/-- The configured registry; where no path is configured, there is no object to read. -/
def configuredRegistry (c : Config) : Logged Registry := do
  match ← Logged.ofExcept .mismatch (c.path? c.paths.registry) with
  | some p => w.registry p
  | none => throw (.registry c.paths.registry.plainText .rootNotObject)

/-- The files below a folder that fit one of the patterns. -/
def sources (root : Path) (patterns : Json) : Except Failure (List Path) := do
  let patterns ← patterns.toTexts.mapError .mismatch
  (w.search root patterns).mapError .search

/-- The opacity modifiers in the configured component sources. -/
def opacityModifiers (c : Config) : Except Failure (List OpacityModifier) := do
  let paths ← w.sources c.root c.paths.componentSources
  return OpacityModifier.ofSources (← paths.mapM w.textOf)

end Workspace

end DesignTokens
