import DesignTokens.Drift.Patterns
import DesignTokens.Drift.Rule

/-!
The default rules. Each guards a constant, or a family of constants, that generators should import
and not repeat.
-/
namespace DesignTokens.Drift

open Text (Pattern isBlank isWord isDecimal isAsciiDigit)

open Text.Pattern

def defaultConstantsModule : String := "design_sync.constants"

def testFiles : List String := ["test_*.py", "*_test.py", "*.test.ts", "*.test.tsx"]

def centralizedNames : List String := ["SECTION_PADDING", "SECTION_GAP"]

def optionalQuote : Pattern := optional (.one isQuote)

/-- A word edge or the literal text before one. -/
def word (s : String) : Pattern := .seq (literal s) .wordEdge

/-- A coordinate set to one hundred, or fifty added to something; not a percentage of fifty, nor
fifty with a fraction. -/
def sectionPosition : Pattern :=
  any [
    all [literal ".x", blanks, char '=', blanks, word "100"],
    all [literal ".y", blanks, char '=', blanks, word "100"],
    all [char '+', blanks, word "50",
      .notAhead (.alt (all [blanks, char '%']) (all [char '.', .one isDecimal]))]]

def isColonOrEquals (c : Char) : Bool := c == ':' || c == '='

/-- An opacity that is set to one half. -/
def halfOpacity : Pattern :=
  all [literal "opacity", optionalQuote, blanks, .one isColonOrEquals, blanks, word "0.5"]

/-- A channel with a fraction. -/
def channel (name : Char) : Pattern :=
  all [optionalQuote, char name, optionalQuote, blanks, char ':', blanks, literal "0.",
    some' isAsciiDigit, blanks]

/-- An object of three channels. -/
def colorObject : Pattern :=
  all [char '\x7b', blanks, channel 'r', char ',', blanks, channel 'g', char ',', blanks,
    channel 'b', char '\x7d']

/-- A drop shadow with a number for its radius or its blur. -/
def shadowEffect : Pattern :=
  all [optionalQuote, literal "type", optionalQuote, blanks, char ':', blanks, .one isQuote,
    literal "DROP_SHADOW", .one isQuote, .many (· != '\x7d'), oneOf ["radius", "blur"],
    optionalQuote, blanks, char ':', blanks, some' isDecimal]

def themeDataUse : Pattern := wholeWord ["load_theme_data", "ThemeSnapshot", "themeData"]

/-- A label placed at a fixed offset. -/
def labelOffset : Pattern :=
  all [literal "label", .many (· != '\n'), literal ".y", blanks, char '=', blanks, some' isWord,
    blanks, char '+', blanks, oneOf ["4", "8", "12"], .wordEdge]

/-- A function that gives a generator's values to tests. -/
def testableExport : Pattern :=
  .alt
    (all [literal "export", someBlanks, literal "function", someBlanks, literal "get", some' isWord,
      oneOf ["Config", "Data", "Styles"], .wordEdge])
    (all [.lineStart, literal "def", someBlanks, literal "get_", some' isWord, char '_',
      oneOf ["config", "data", "styles"], blanks, char '('])

/-- The full radius as a number of its own. -/
def fullRadiusNumber : Pattern :=
  all [.notAfter isDotted, literal "9999", .notBefore isDotted]

/-- An opacity of one half that is compared or set. -/
def halfOpacityInTest : Pattern :=
  all [any [literal "toBe", literal "toEqual", literal "==",
      all [literal "opacity", optionalQuote, blanks, .one isColonOrEquals]],
    blanks, optional (char '('), blanks, word "0.5"]

/-- The module's path, with the ending of either language. -/
def moduleFiles (module : String) : List String :=
  let path := module.map fun c => if c == '.' then '/' else c
  [path ++ ".py", path ++ ".ts"]

def redeclared (module name : String) : Rule where
  ruleId := "DRIFT.REDECLARED_" ++ name
  detect := declaration name
  message := "Redeclares " ++ name ++ "; import it from " ++ module ++ " instead"
  remediation :=
    "Remove the local declaration and add `from " ++ module ++ " import " ++ name ++ "`"
  declarationFiles := moduleFiles module
  excludePatterns := testFiles

/-- A local declaration is reported by another rule, so that it satisfies this one. -/
def missingImport (module : String) : Rule where
  ruleId := "DRIFT.MISSING_CONSTANT_IMPORT"
  detect := usage centralizedNames
  required := some (any (importOf centralizedNames module :: centralizedNames.map declaration))
  message := "Uses " ++ String.intercalate " or " centralizedNames ++ " without importing from " ++
    module
  remediation := "Add `from " ++ module ++ " import SECTION_GAP, SECTION_PADDING`"
  declarationFiles := moduleFiles module
  excludePatterns := testFiles

/-- A number that a constant of the module stands for. -/
def hardcoded (module ruleId constant : String) (severity : Severity) (detect : Pattern)
    (message remediation : String) : Rule where
  ruleId
  detect
  severity
  required := some (importOf [constant] module)
  message
  remediation
  declarationFiles := moduleFiles module
  excludePatterns := testFiles

/-- A number in a test that a constant of the module stands for. -/
def hardcodedInTest (module ruleId constant : String) (detect : Pattern)
    (message remediation : String) : Rule where
  ruleId
  detect
  required := some (importOf [constant] module)
  message
  remediation
  filePatterns := testFiles

def hardcodedShadow (module : String) : Rule where
  ruleId := "DRIFT.HARDCODED_SHADOW"
  detect := shadowEffect
  severity := .soft
  required := some themeDataUse
  message := "Hardcoded shadow effect"
  remediation :=
    "Read shadow layers from the theme snapshot (design_sync.theme.load_theme_data)"
  declarationFiles := moduleFiles module
  excludePatterns := testFiles

def missingTestableExports : Rule where
  ruleId := "DRIFT.MISSING_TESTABLE_EXPORTS"
  detect := testableExport
  severity := .soft
  message := "Generator has no testable get_*_config/get_*_data export"
  remediation := "Expose the values the generator draws with through a get_<name>_config() or " ++
    "get_<name>_data() function"
  filePatterns := ["*generators/*.py", "*generators/*.ts"]
  excludePatterns := testFiles ++ ["__init__.py", "index.ts"]
  firesWhenAbsent := true

/-- The default rules for a module of constants. -/
def defaultRules (module : String) : List Rule :=
  centralizedNames.map (redeclared module) ++ [
    missingImport module,
    hardcoded module "DRIFT.HARDCODED_SECTION_POSITION" "SECTION_LAYOUT" .hard sectionPosition
      "Hardcoded section start position or mode gap"
      ("Use SECTION_LAYOUT['startX'], SECTION_LAYOUT['startY'] and SECTION_LAYOUT['modeGap'] from "
        ++ module),
    hardcoded module "DRIFT.HARDCODED_OPACITY" "OPACITY" .hard halfOpacity "Hardcoded opacity 0.5"
      ("Use OPACITY['disabled'] from " ++ module),
    hardcoded module "DRIFT.HARDCODED_RGB" "COLORS" .hard colorObject "Hardcoded RGB color object"
      ("Bind a theme token, or use a COLORS entry from " ++ module),
    hardcodedShadow module,
    hardcoded module "DRIFT.HARDCODED_LABEL_OFFSET" "LABEL_OFFSET" .soft labelOffset
      "Hardcoded label offset" ("Use LABEL_OFFSET['sm'|'md'|'lg'] from " ++ module),
    missingTestableExports,
    hardcodedInTest module "DRIFT.TEST_HARDCODED_FULL_RADIUS" "BORDER_RADIUS_FULL" fullRadiusNumber
      "Test hardcodes the full border radius 9999" ("Import BORDER_RADIUS_FULL from " ++ module),
    hardcodedInTest module "DRIFT.TEST_HARDCODED_OPACITY" "OPACITY" halfOpacityInTest
      "Test hardcodes opacity 0.5" ("Compare against OPACITY['disabled'] from " ++ module)]

end DesignTokens.Drift
