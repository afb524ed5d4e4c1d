import DesignTokens.File.Path
import DesignTokens.Matrix.Constants
import DesignTokens.Utility.Settings

/-!
The configuration of a run, in five sections. Numbers are read at once; every other value is kept as
the file has it, and is read where it is used. Relative paths start at the configuration's root.
-/
namespace DesignTokens

namespace Config

/-- Where the inputs and the outputs of a run are. -/
structure Paths where
  frameworkCss : Json := "node_modules/tailwindcss/theme.css"
  projectCss : Json := "src/styles/theme.css"
  registry : Json := "ai/component-registry.json"
  themeData : Json := "generated/theme-data.json"
  output : Json := "generated/scene.json"
  componentSources : Json := .arr []
  deriving Repr

/-- How utility classes are parsed. -/
structure Parsing where
  fillLead : Json := "color-"
  strokeLead : Json := "color-"
  textLead : Json := "text-color-"
  colorNamespaces : Json := .ofStrings ["kumo"]
  noFillKeywords : Json := .ofStrings ["transparent", "inherit", "none"]
  whiteTextKeywords : Json := .ofStrings ["white"]
  stateVariants : Json := .ofStrings ["hover", "focus", "active", "disabled", "pressed"]
  rootFontSize : Float := Css.defaultRootFontSize
  deriving Repr

/-- How matrices are laid out. -/
structure Layout where
  modes : Json := .ofStrings ["light", "dark"]
  /-- The axes that are laid out as rows, for components that say so. -/
  rowAxes : Table (List Json) := []
  constants : Matrix.Constants Number := .default
  deriving Repr

/-- A value in a source file that must agree with the theme or with the registry. -/
structure SyncEntry where
  file : Json
  name : Json
  kind : Json := "map"
  component : Json := .null
  prop : Json := .null
  styleProperty : Json := .null
  snapshotPath : Json := .null
  deriving Repr

/-- What a drift check looks at. -/
structure Drift where
  sources : Json := .ofStrings ["generators/**/*.py", "generators/**/*.ts"]
  disabledRules : Json := .arr []
  severityOverrides : Json := .obj []
  constantsModule : Json := "design_sync.constants"
  sync : List SyncEntry := []
  checkThemeData : Json := .bool true
  maxWorkers : Int := 8
  deriving Repr

structure Logging where
  level : Json := "INFO"
  file : Json := .null
  format : Json := "text"
  deriving Repr

end Config

structure Config where
  paths : Config.Paths := {}
  parsing : Config.Parsing := {}
  layout : Config.Layout := {}
  drift : Config.Drift := {}
  logging : Config.Logging := {}
  root : Path
  deriving Repr

namespace Config

def Paths.toJson (p : Paths) : Json :=
  .obj [("frameworkCss", p.frameworkCss), ("projectCss", p.projectCss), ("registry", p.registry),
    ("themeData", p.themeData), ("output", p.output), ("componentSources", p.componentSources)]

def Paths.ofJson (v : Json) : Except Json.Mismatch Paths := do
  let d : Paths := {}
  return {
    frameworkCss := ← v.memberD "frameworkCss" d.frameworkCss
    projectCss := ← v.memberD "projectCss" d.projectCss
    registry := ← v.memberD "registry" d.registry
    themeData := ← v.memberD "themeData" d.themeData
    output := ← v.memberD "output" d.output
    componentSources := ← v.memberD "componentSources" d.componentSources
  }

def Parsing.toJson (p : Parsing) : Json :=
  .obj [("fillVariablePrefix", p.fillLead), ("strokeVariablePrefix", p.strokeLead),
    ("textVariablePrefix", p.textLead), ("colorNamespaces", p.colorNamespaces),
    ("noFillKeywords", p.noFillKeywords), ("whiteTextKeywords", p.whiteTextKeywords),
    ("stateVariants", p.stateVariants), ("rootFontSizePx", .ofFloat p.rootFontSize)]

def Parsing.ofJson (v : Json) : Except Json.Mismatch Parsing := do
  let d : Parsing := {}
  return {
    fillLead := ← v.memberD "fillVariablePrefix" d.fillLead
    strokeLead := ← v.memberD "strokeVariablePrefix" d.strokeLead
    textLead := ← v.memberD "textVariablePrefix" d.textLead
    colorNamespaces := ← v.memberD "colorNamespaces" d.colorNamespaces
    noFillKeywords := ← v.memberD "noFillKeywords" d.noFillKeywords
    whiteTextKeywords := ← v.memberD "whiteTextKeywords" d.whiteTextKeywords
    stateVariants := ← v.memberD "stateVariants" d.stateVariants
    rootFontSize := ← (← v.memberD "rootFontSizePx" (.ofFloat d.rootFontSize)).toFloat
  }

/-- The settings of the utility parser. -/
def Parsing.settings (p : Parsing) : Except Json.Mismatch Utility.Settings :=
  Utility.Settings.ofJson p.toJson

def Layout.toJson (l : Layout) : Json :=
  .obj [("modes", l.modes), ("rowAxes", .obj (Table.mapValues Json.arr l.rowAxes)),
    ("layout", l.constants.toJson)]

def Layout.ofJson (v : Json) : Except Json.Mismatch Layout := do
  let d : Layout := {}
  let modes ← v.memberD "modes" d.modes
  let rowAxes ← (← (← v.memberD "rowAxes" (.obj [])).fields "items").mapM fun (k, x) => do
    return (k, ← x.items)
  return ⟨modes, rowAxes, ← Matrix.Constants.ofJson (← v.memberD "layout" (.obj []))⟩

def SyncEntry.toJson (e : SyncEntry) : Json :=
  .obj [("file", e.file), ("name", e.name), ("kind", e.kind), ("component", e.component),
    ("prop", e.prop), ("styleProperty", e.styleProperty), ("snapshotPath", e.snapshotPath)]

def SyncEntry.ofJson (v : Json) : Except Json.Mismatch SyncEntry := do
  return {
    file := ← v.member "file"
    name := ← v.member "name"
    kind := ← v.memberD "kind" "map"
    component := ← v.memberD "component" .null
    prop := ← v.memberD "prop" .null
    styleProperty := ← v.memberD "styleProperty" .null
    snapshotPath := ← v.memberD "snapshotPath" .null
  }

def Drift.toJson (d : Drift) : Json :=
  .obj [("sources", d.sources), ("disabledRules", d.disabledRules),
    ("severityOverrides", d.severityOverrides), ("constantsModule", d.constantsModule),
    ("sync", .arr (d.sync.map SyncEntry.toJson)), ("checkThemeData", d.checkThemeData),
    ("maxWorkers", .ofInt d.maxWorkers)]

def Drift.ofJson (v : Json) : Except Json.Mismatch Drift := do
  let d : Drift := {}
  return {
    sources := ← v.memberD "sources" d.sources
    disabledRules := ← v.memberD "disabledRules" d.disabledRules
    severityOverrides := ← v.memberD "severityOverrides" d.severityOverrides
    constantsModule := ← v.memberD "constantsModule" d.constantsModule
    sync := ← (← (← v.memberD "sync" (.arr [])).items).mapM SyncEntry.ofJson
    checkThemeData := ← v.memberD "checkThemeData" d.checkThemeData
    maxWorkers := ← (← v.memberD "maxWorkers" (.ofInt d.maxWorkers)).toInt
  }

def Logging.toJson (l : Logging) : Json :=
  .obj [("level", l.level), ("file", l.file), ("format", l.format)]

def Logging.ofJson (v : Json) : Except Json.Mismatch Logging := do
  let d : Logging := {}
  return ⟨← v.memberD "level" d.level, ← v.memberD "file" d.file, ← v.memberD "format" d.format⟩

def toJson (c : Config) : Json :=
  .obj [("paths", c.paths.toJson), ("parser", c.parsing.toJson), ("matrix", c.layout.toJson),
    ("drift", c.drift.toJson), ("logging", c.logging.toJson)]

/-- The configuration of an object; an absent name keeps its default. -/
def ofJson (root : Path) (v : Json) : Except Json.Mismatch Config := do
  return {
    paths := ← Paths.ofJson (← v.memberD "paths" (.obj []))
    parsing := ← Parsing.ofJson (← v.memberD "parser" (.obj []))
    layout := ← Layout.ofJson (← v.memberD "matrix" (.obj []))
    drift := ← Drift.ofJson (← v.memberD "drift" (.obj []))
    logging := ← Logging.ofJson (← v.memberD "logging" (.obj []))
    root
  }

/-- A path seen from the root. -/
def resolve (c : Config) (p : Path) : Path := c.root.join p

/-- The path that a value names, if it is not null. -/
def path? (c : Config) (v : Json) : Except Json.Mismatch (Option Path) :=
  match v with
  | .null => .ok none
  | _ => v.toText.map fun s => some (c.resolve (.ofString s))

/-- The path that a value names; null names none. -/
def path (c : Config) (v : Json) : Except Json.Mismatch Path := do
  match ← c.path? v with
  | some p => return p
  | none => .error (.notPath v.typeName)

end Config

end DesignTokens
