import DesignTokens.File.Workspace
import DesignTokens.Project.Arguments

/-!
Commands: building the theme data, generating components, and checking sources for drift.
-/
namespace DesignTokens

/-- What all commands share. -/
structure CommonOptions where
  verbose : Bool
  quiet : Bool
  config : Option String
  deriving DecidableEq, Repr

inductive Command where
  | buildTheme (output : Option String)
  | generate (name : Option String) (everything : Bool) (output : Option String)
  /-- Without files, those of the configuration are checked. -/
  | checkDrift (asJson withSync : Bool) (files : List String)
  deriving DecidableEq, Repr

/-- What a command line asks for. -/
inductive Request where
  | help
  | version
  | run (common : CommonOptions) (command : Command)
  deriving DecidableEq, Repr

namespace Request

def groupOptions : List OptionSpec := [⟨"--help", none, false⟩, ⟨"--version", none, false⟩]

def commonOptions : List OptionSpec :=
  [⟨"--help", none, false⟩, ⟨"--verbose", 'v', false⟩, ⟨"--quiet", 'q', false⟩,
    ⟨"--config", none, true⟩]

def outputOption : OptionSpec := ⟨"--output", 'o', true⟩

/-- The options of a command, if there is a command with the name. -/
def optionsOf? (name : String) : Option (List OptionSpec) :=
  match name with
  | "build-theme" => some (outputOption :: commonOptions)
  | "generate" => some (⟨"--all", none, false⟩ :: outputOption :: commonOptions)
  | "check-drift" =>
    some (⟨"--format", none, true⟩ :: ⟨"--no-sync", none, false⟩ :: commonOptions)
  | _ => none

/-- The command of a name, with its options and operands. -/
def commandOf (name : String) (g : Given) : Except UsageFault Command :=
  let output := (g.value? "--output").filter (· != "")
  match name, g.operands with
  | "build-theme", [] => .ok (.buildTheme output)
  | "build-theme", operand :: _ => .error (.unwantedOperand operand)
  | "generate", [] => .ok (.generate none (g.has "--all") output)
  | "generate", [component] => .ok (.generate (some component) (g.has "--all") output)
  | "generate", _ :: operand :: _ => .error (.unwantedOperand operand)
  | _, files => match (g.value? "--format").getD "text" with
    | "text" => .ok (.checkDrift false (!g.has "--no-sync") files)
    | "json" => .ok (.checkDrift true (!g.has "--no-sync") files)
    | format => .error (.badValue "--format" format)

/-- The options that all commands share; a configuration file must be there. -/
def commonOf (w : Workspace) (g : Given) : Except UsageFault CommonOptions :=
  let common : CommonOptions := ⟨g.has "--verbose", g.has "--quiet", g.value? "--config"⟩
  match common.config with
  | none => .ok common
  | some p => if p != "" && w.has (.ofString p) then .ok common
    else .error (.badValue "--config" p)

/-- What a command line asks for. -/
def parse (w : Workspace) (args : List String) : Except UsageFault Request := do
  let group ← readArguments groupOptions false args
  if group.has "--help" then return .help
  if group.has "--version" then return .version
  match group.operands with
  | [] => throw .missingCommand
  | name :: args =>
    let some specs := optionsOf? name | throw (.unknownCommand name)
    let g ← readArguments specs true args
    if g.has "--help" then return .help
    return .run (← commonOf w g) (← commandOf name g)

end Request

end DesignTokens
