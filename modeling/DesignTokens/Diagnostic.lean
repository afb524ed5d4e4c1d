import DesignTokens.Json.Value

/-!
Diagnostics: what a failed run tells its user. Each has a message, most a suggestion, and details
under names in a fixed order.
-/
namespace DesignTokens

inductive Category where
  | configuration
  | layout
  | drift
  | fileSystem
  deriving DecidableEq, Repr

def Category.name : Category → String
  | .configuration => "configuration"
  | .layout => "layout"
  | .drift => "drift"
  | .fileSystem => "file_system"

def Category.ofName? (name : String) : Option Category :=
  [.configuration, .layout, .drift, .fileSystem].find? fun c => c.name == name

/-- What a diagnostic is about. The first four all concern the configuration. -/
inductive Subject where
  | configuration
  | missingToken
  | invalidToken
  | registry
  | layout
  | drift
  | general
  deriving DecidableEq, Repr

def Subject.concernsConfiguration : Subject → Bool
  | .configuration | .missingToken | .invalidToken | .registry => true
  | _ => false

structure Diagnostic where
  subject : Subject
  category : Category
  message : String
  suggestion : Option String
  details : Table Json
  exitCode : Int
  deriving Repr

namespace Diagnostic

/-- A text that is there and not empty. -/
def present (text : Option String) : Option String := text.filter (· != "")

/-- A detail for each text that is present. -/
def detailsOf (texts : List (String × Option String)) : Table Json :=
  texts.filterMap fun (name, text) => (present text).map fun t => (name, .str t)

/-- A complaint about the inputs of a run. -/
def ofConfiguration (subject : Subject) (message : String) (source expected : Option String)
    (suggestion : String) : Diagnostic where
  subject
  category := .configuration
  message
  suggestion := some suggestion
  details := detailsOf [("source", source), ("expected", expected)]
  exitCode := 1

/-- A complaint about the configuration; a suggestion that is absent is a general one. -/
def configuration (message : String) (source expected suggestion : Option String) : Diagnostic :=
  ofConfiguration .configuration message source expected
    ((present suggestion).getD "Check the source file for the expected token or shape")

def missingToken (token source : String) : Diagnostic :=
  ofConfiguration .missingToken s!"Expected theme token {token} not found in {source}" source token
    (s!"Declare {token} in the framework theme source; " ++
      "framework defaults are never silently substituted")

def invalidToken (token value source shape : String) : Diagnostic :=
  ofConfiguration .invalidToken
    s!"Theme token {token} in {source} has unparseable value {Text.quote value}"
    source s!"{token}: <{shape}>" s!"Give {token} a {shape} value"

/-- A complaint about a registry entry, located by component and prop. -/
def registry (message : String) (component prop source suggestion : Option String) : Diagnostic :=
  let location := String.intercalate "." ([component, prop].filterMap present)
  ofConfiguration .registry (if location == "" then message else s!"{location}: {message}") source
    "props.<axis>.\x7bvalues, classes, descriptions, default\x7d"
    ((present suggestion).getD
      "Fix the registry entry; a single invalid component fails the whole load")

/-- A grid that breaks an invariant of layout; the component comes last among the details. -/
def layout (message : String) (component : Option String) (details : Table Json) : Diagnostic where
  subject := .layout
  category := .layout
  message
  suggestion := some
    "This is a generator defect; check the measurer and the row/column track computation"
  details := match present component with
    | some c => Table.put "component" (.str c) details
    | none => details
  exitCode := 1

def driftFound (hard : Json) : Diagnostic where
  subject := .drift
  category := .drift
  message := hard.plainText ++ " hard drift violation(s) found"
  suggestion := some "Import the centralized constants named in each violation"
  details := []
  exitCode := 1

/-- The escapes that switch a terminal to a colour and back. -/
structure Palette where
  error : String
  hint : String
  dim : String
  reset : String

def Palette.plain : Palette := ⟨"", "", "", ""⟩

def Palette.colored : Palette := ⟨"\x1b[91m", "\x1b[96m", "\x1b[2m", "\x1b[0m"⟩

/-- The message, the suggestion if there is one, and a line for each detail. -/
def lines (d : Diagnostic) (p : Palette) : List String :=
  let suggestion := match present d.suggestion with
    | some s => [p.hint ++ "Suggestion:" ++ p.reset ++ " " ++ s]
    | none => []
  (p.error ++ "Error:" ++ p.reset ++ " " ++ d.message) ::
    (suggestion ++ d.details.map fun (k, v) => p.dim ++ "  " ++ k ++ ": " ++ v.plainText ++ p.reset)

def format (d : Diagnostic) (p : Palette) : String :=
  String.intercalate "\n" (d.lines p)

def plain (d : Diagnostic) : String := d.format .plain

end Diagnostic

end DesignTokens
