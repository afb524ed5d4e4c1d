import DesignTokens.Diagnostic
import DesignTokens.Registry.Component
import DesignTokens.Text.Similarity

/-!
Looking up a component by name. A name that is unknown is answered with the names that come close.
-/
namespace DesignTokens

/-- A name that no component has. -/
structure UnknownName where
  name : String
  available : List String
  deriving DecidableEq, Repr

namespace UnknownName

/-- The available names that come close. -/
def suggestions (u : UnknownName) : List String := Text.closeMatches u.name u.available

def message (u : UnknownName) : String :=
  let close := u.suggestions
  "Unknown component: " ++ u.name ++
    if close.isEmpty then "" else " (did you mean " ++ String.intercalate ", " close ++ "?)"

def diagnostic (u : UnknownName) : Diagnostic :=
  .configuration u.message "registry" u.name
    (some (if u.available.isEmpty then "The registry is empty; check the registry path"
      else "Use one of: " ++ String.intercalate ", " u.available))

end UnknownName

namespace Registry

/-- The component with a name. -/
def require (r : Registry) (name : String) : Except UnknownName Component :=
  match r.get? name with
  | some c => .ok c
  | none => .error ⟨name, r.names⟩

/-- The components that are asked for by name, or all where none is. -/
def select (r : Registry) (wanted : List String) : Except UnknownName (List String) :=
  if wanted.isEmpty then .ok r.names else wanted.mapM fun n => (r.require n).map (·.name)

/-- The color classes of one component, or of all where no name is given. -/
def colorsFor (r : Registry) (name : Option String) : Except UnknownName (List String) :=
  match name.filter (· != "") with
  | some n => (r.require n).map fun c => colorsOf [c]
  | none => .ok r.colors

end Registry

end DesignTokens
