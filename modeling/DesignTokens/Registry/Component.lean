import DesignTokens.Registry.Value
import DesignTokens.Text.Order

/-!
Components: what a registry knows of each, in the order in which it is declared.
-/
namespace DesignTokens

/-- An ordered choice of values, with a class string and a description for each. -/
structure VariantAxis where
  name : String
  values : List AxisValue
  classes : Table String
  descriptions : Table String
  default : AxisValue
  type : String
  deriving DecidableEq, Repr

namespace VariantAxis

def keys (a : VariantAxis) : List String := a.values.map AxisValue.key

/-- The class string of the value with a key. -/
def classFor? (a : VariantAxis) (key : String) : Option String := Table.get? key a.classes

def descriptionFor? (a : VariantAxis) (key : String) : Option String :=
  Table.get? key a.descriptions

/-- The place of the first value with a key. -/
def indexOf? (a : VariantAxis) (key : String) : Option Nat := a.keys.idxOf? key

/-- What is said of a value that the axis does not have. -/
def notAValue (a : VariantAxis) (v : Json) : String := v.shown ++ " is not a value of axis " ++ a.name

end VariantAxis

/-- A named element that is rendered inside a component. -/
structure SubComponent where
  name : String
  description : String
  baseClasses : Option String
  deriving DecidableEq, Repr

structure Component where
  name : String
  description : String
  category : String
  axes : List VariantAxis
  colors : List String
  baseClasses : Option String
  subComponents : Table SubComponent
  styling : Table Json
  /-- Props that are no variant axes. -/
  otherProps : Table Json
  deriving Repr

namespace Component

def axis? (c : Component) (name : String) : Option VariantAxis := c.axes.find? (·.name == name)

/-- The number of combinations of axis values. -/
def variantCount (c : Component) : Nat :=
  c.axes.foldl (fun n a => n * a.values.length) 1

end Component

/-- The components of one source. -/
structure Registry where
  components : Table Component
  source : String
  deriving Repr

namespace Registry

def names (r : Registry) : List String := Table.keys r.components

def get? (r : Registry) (name : String) : Option Component := Table.get? name r.components

def byCategory (r : Registry) (category : String) : List Component :=
  (Table.values r.components).filter (·.category == category)

def categories (r : Registry) : List String :=
  Text.sortedDistinct ((Table.values r.components).map (·.category))

/-- The color classes of some components, each once. -/
def colorsOf (cs : List Component) : List String :=
  Text.distinct (cs.flatMap (·.colors))

/-- The color classes of all components, each once. -/
def colors (r : Registry) : List String := colorsOf (Table.values r.components)

end Registry

end DesignTokens
