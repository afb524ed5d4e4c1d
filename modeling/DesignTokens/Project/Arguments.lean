import DesignTokens.Text.Words

/-!
Command lines. Options and operands may stand in any order; short options may share a hyphen, and
two hyphens end the options. Of an option that is given more than once, the last one counts.
-/
namespace DesignTokens

/-- An option, its other name if it has one, and whether a value follows it. -/
structure OptionSpec where
  long : String
  short : Option Char := none
  takesValue : Bool := false
  deriving DecidableEq, Repr

/-- What is wrong with a command line. -/
inductive UsageFault where
  | unknownOption (name : String)
  | missingValue (name : String)
  | unwantedValue (name : String)
  | unwantedOperand (text : String)
  | missingCommand
  | unknownCommand (name : String)
  | badValue (name value : String)
  deriving DecidableEq, Repr

def UsageFault.message : UsageFault → String
  | .unknownOption name => "No such option: " ++ name
  | .missingValue name => "Option " ++ name ++ " requires an argument."
  | .unwantedValue name => "Option " ++ name ++ " does not take a value."
  | .unwantedOperand text => "Got unexpected extra argument (" ++ text ++ ")"
  | .missingCommand => "Missing command."
  | .unknownCommand name => "No such command '" ++ name ++ "'."
  | .badValue name value => "Invalid value for " ++ name ++ ": " ++ value

/-- The options that are given, each with its value, and the operands. -/
structure Given where
  options : List (String × String) := []
  operands : List String := []
  deriving DecidableEq, Repr

namespace Given

def has (g : Given) (long : String) : Bool := g.options.any (·.1 == long)

/-- The value of an option, the last one if there are several. -/
def value? (g : Given) (long : String) : Option String :=
  (g.options.reverse.find? (·.1 == long)).map (·.2)

def add (g : Given) (options : List (String × String)) : Given :=
  { g with options := options ++ g.options }

end Given

/-- The options of one argument, and the name of the option whose value is yet to come. -/
abbrev Argument := List (String × String) × Option String

/-- The options after a single hyphen. -/
def readShort (specs : List OptionSpec) : List Char → Except UsageFault Argument
  | [] => .ok ([], none)
  | c :: cs => match specs.find? (·.short == some c) with
    | none => .error (.unknownOption ("-" ++ String.singleton c))
    | some spec =>
      if !spec.takesValue then do
        let (options, waiting) ← readShort specs cs
        return ((spec.long, "") :: options, waiting)
      else if cs.isEmpty then .ok ([], some spec.long)
      else .ok ([(spec.long, String.ofList cs)], none)

/-- The name of a long option, and the value behind an equals sign. -/
def splitValue (arg : String) : String × Option String :=
  match arg.toList.dropWhile (· != '=') with
  | [] => (arg, none)
  | _ :: value => (String.ofList (arg.toList.takeWhile (· != '=')), some (String.ofList value))

/-- The options of an argument that starts with a hyphen. -/
def readOption (specs : List OptionSpec) (arg : String) : Except UsageFault Argument :=
  let (name, value) := splitValue arg
  match specs.find? (·.long == name), value with
  | some spec, some value =>
    if spec.takesValue then .ok ([(name, value)], none) else .error (.unwantedValue name)
  | some spec, none =>
    if spec.takesValue then .ok ([], some name) else .ok ([(name, "")], none)
  | none, _ =>
    if Text.startsWith arg "--" then .error (.unknownOption name)
    else readShort specs (arg.toList.drop 1)

def isOption (arg : String) : Bool := Text.startsWith arg "-" && arg != "-"

/-- Reads the arguments; `anywhere` says whether options may follow an operand. -/
def readArguments (specs : List OptionSpec) (anywhere : Bool) :
    List String → Except UsageFault Given
  | [] => .ok {}
  | arg :: rest =>
    if arg == "--" then .ok { operands := rest }
    else if isOption arg then
      match readOption specs arg with
      | .error f => .error f
      | .ok (options, none) => (readArguments specs anywhere rest).map (·.add options)
      | .ok (options, some name) => match rest with
        | [] => .error (.missingValue name)
        | value :: rest =>
          (readArguments specs anywhere rest).map (·.add (options ++ [(name, value)]))
    else if anywhere then
      (readArguments specs anywhere rest).map fun g => { g with operands := arg :: g.operands }
    else .ok { operands := arg :: rest }

end DesignTokens
