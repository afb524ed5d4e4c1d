import DesignTokens.Json.Reader
import DesignTokens.Registry.Component
import DesignTokens.Registry.Entry
import DesignTokens.Diagnostic
import DesignTokens.Text.Encoding

/-!
Loading a registry. The entries stand at the top or under the name `components`. All of them must
be valid, and each may repeat the name that it stands under but have no other; a single fault fails
the whole load.
-/
namespace DesignTokens.Registry

/-- Why a registry does not load. -/
inductive Fault where
  /-- Bytes that are no text. -/
  | undecodable
  /-- An integer with too many digits to be read. -/
  | longInteger
  /-- No JSON text; the message says why. -/
  | malformed (message : String)
  | rootNotObject
  | componentsNotObject
  | invalid (first : Problem) (more : Nat)
  | misnamed (key name : String)
  | absent (path : String)
  deriving DecidableEq, Repr

/-- The names that lead to a problem: the component, the prop if there is one, and what is left. -/
def Problem.place (p : Problem) : Option String × Option String × List String :=
  match p.path with
  | [] => (none, none, [])
  | component :: "props" :: prop :: _ => (some component, some prop, [])
  | component :: rest => (some component, none, rest)

/-- The diagnostic of a fault in a source. A source whose text or numbers are beyond reading has
none. -/
def Fault.diagnostic? (source : String) : Fault → Option Diagnostic
  | .undecodable | .longInteger => none
  | .malformed message => some <|
    .registry ("Invalid JSON: " ++ message) none none source (some "Fix the registry JSON syntax")
  | .rootNotObject => some <| .registry "registry root must be a JSON object" none none source none
  | .componentsNotObject => some <|
    .registry "'components' must be an object of name -> descriptor" none none source none
  | .invalid first more =>
    let (component, prop, rest) := first.place
    let message := first.complaint.message
    let message := if rest.isEmpty then message else String.intercalate "." rest ++ ": " ++ message
    let message := if more = 0 then message
      else message ++ " (and " ++ toString more ++ " more error(s))"
    some <| .registry message component prop source none
  | .misnamed key name => some <|
    .registry ("name " ++ Text.quote name ++ " does not match registry key") key none source
      (some ("Set name to " ++ Text.quote key ++ " or rename the entry"))
  | .absent path => some <|
    .registry ("Registry file not found: " ++ path) none none path
      (some "Check paths.registry in the config")

/-- The axis that a prop with values declares. -/
def axisOf? (name : String) (p : PropEntry) : Option VariantAxis :=
  match p.values, p.default with
  | some values, some default => some {
      name
      values
      classes := p.classes.getD []
      descriptions := p.descriptions.getD []
      default
      type := (p.type.filter (· != "")).getD
        (if values.all AxisValue.isFlag then "boolean" else "enum") }
  | _, _ => none

def subComponentOf (key : String) (s : SubComponentEntry) : SubComponent where
  name := (s.name.filter (· != "")).getD key
  description := s.description
  baseClasses := s.baseClasses

/-- The component of an entry under a name. -/
def componentOf (name : String) (e : ComponentEntry) : Component where
  name
  description := e.description
  category := e.category
  axes := e.props.filterMap fun (key, p) => axisOf? key p
  colors := e.colors
  baseClasses := e.baseClasses
  subComponents := (e.subComponents.getD []).map fun (key, s) => (key, subComponentOf key s)
  styling := e.styling.getD []
  otherProps := e.props.filterMap fun (key, p) =>
    if p.values.isNone then some (key, p.toJson) else none

/-- The component of an entry, unless the entry claims another name. -/
def named (entry : String × ComponentEntry) : Except Fault (String × Component) :=
  match entry.2.name with
  | some name =>
    if name == entry.1 then .ok (entry.1, componentOf entry.1 entry.2)
    else .error (.misnamed entry.1 name)
  | none => .ok (entry.1, componentOf entry.1 entry.2)

/-- The components of the entries of an object. -/
def ofEntries (source : String) (entries : Table Json) : Except Fault Registry :=
  match Checked.tableOf ComponentEntry.ofJson (.obj entries) with
  | .invalid first more => .error (.invalid first more.length)
  | .valid entries => do return ⟨← entries.mapM named, source⟩

/-- The registry of a value. -/
def ofJson (source : String) (v : Json) : Except Fault Registry :=
  match v with
  | .obj fields => match Table.get? "components" fields with
    | none => ofEntries source fields
    | some (.obj entries) => ofEntries source entries
    | some _ => .error .componentsNotObject
  | _ => .error .rootNotObject

/-- The fault of a text that is not read. -/
def Fault.ofReading (text : String) (f : Json.Fault) : Fault :=
  match f.problem with
  | .longInteger _ => .longInteger
  | _ => .malformed (f.message text)

/-- The registry of a JSON text. -/
def ofText (source text : String) : Except Fault Registry := do
  ofJson source (← (Json.read text).mapError (Fault.ofReading text))

/-- The registry of a JSON text in any of the encodings of Unicode. -/
def ofBytes (source : String) (bytes : Text.Bytes) : Except Fault Registry :=
  match Text.decodeDetected? bytes with
  | none => .error .undecodable
  | some cs => do
    ofJson source (← (Json.readChars cs).mapError (Fault.ofReading (String.ofList cs)))

end DesignTokens.Registry
