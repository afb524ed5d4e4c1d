import DesignTokens.Json.Writer
import DesignTokens.Text.Words

/-!
Log entries and the lines that they make, as plain text and as JSON. A level is a number; the usual
ones have names.
-/
namespace DesignTokens

namespace Log

abbrev Level := Int

def Level.debug : Level := 10

def Level.info : Level := 20

def Level.warning : Level := 30

def Level.error : Level := 40

/-- The levels that have names. -/
def levelNames : List (Level × String) :=
  [(0, "NOTSET"), (10, "DEBUG"), (20, "INFO"), (30, "WARNING"), (40, "ERROR"), (50, "CRITICAL")]

def Level.name (l : Level) : String := (levelNames.lookup l).getD ("Level " ++ toString l)

/-- The level with a name; two of them have a second name. -/
def Level.ofName? (name : String) : Option Level :=
  if name == "FATAL" then some 50
  else if name == "WARN" then some 30
  else (levelNames.find? (·.2 == name)).map (·.1)

/-- What an entry can tell beside its message. -/
def extraNames : List String := ["component", "rule_id", "file_path", "cell_count", "duration_ms"]

structure Entry where
  level : Level
  logger : String
  message : String
  module : String := ""
  function : Option String := none
  line : Int := 0
  extras : Table Json := []
  deriving Repr

/-- The name of a source file without its directory and its ending; dots at its start end nothing. -/
def moduleOfSource (path : String) : String :=
  let name := ((Text.splitOn path '/').getLast?).getD ""
  let dots := name.toList.takeWhile (· == '.')
  match (Text.splitOn (String.ofList (name.toList.dropWhile (· == '.'))) '.').reverse with
  | [] | [_] => name
  | _ :: parts => String.ofList dots ++ String.intercalate "." parts.reverse

namespace Entry

/-- The entry as data, without the time. -/
def fields (e : Entry) : Table Json :=
  [("level", .str e.level.name), ("logger", .str e.logger), ("module", .str e.module),
    ("function", .ofOption (e.function.map .str)), ("line", .ofInt e.line),
    ("message", .str e.message)] ++
    extraNames.filterMap fun name => (Table.get? name e.extras).map fun v => (name, v)

/-- The line of a structured log. -/
def jsonLine (stamp : String) (e : Entry) : String :=
  (Json.obj (("timestamp", .str stamp) :: e.fields)).compact

/-- A text and blanks up to a width. -/
def padded (width : Nat) (s : String) : String :=
  s ++ String.ofList (List.replicate (width - s.length) ' ')

/-- The line of a plain log. -/
def textLine (stamp : String) (e : Entry) : String :=
  stamp ++ " | " ++ padded 8 e.level.name ++ " | " ++ e.logger ++ ":" ++ e.function.getD "None" ++
    ":" ++ toString e.line ++ " - " ++ e.message

/-- The line that is shown to the user. -/
def consoleLine (e : Entry) : String := e.level.name ++ " | " ++ e.message

end Entry

/-- The levels of a logger and of its handlers. -/
structure Levels where
  logger : Level
  handlers : List Level
  deriving DecidableEq, Repr

/-- All levels lowered to debugging. -/
def Levels.debugging (l : Levels) : Levels := ⟨.debug, l.handlers.map fun _ => .debug⟩

/-- Runs a part of a program with all levels lowered; the levels are as before when it ends. -/
def Levels.whileDebugging {α : Type} (l : Levels) (body : Levels → α) : α × Levels :=
  (body l.debugging, l)

end Log

end DesignTokens
