import DesignTokens.Decimal.Reader
import DesignTokens.Number
import DesignTokens.Table
import DesignTokens.Text.Words

/-!
Nodes of a scene. A node has an identity made of its kind and a running number.
-/
namespace DesignTokens.Scene

inductive NodeKind where
  | frame
  | text
  | component
  deriving DecidableEq, Repr

def NodeKind.name : NodeKind → String
  | .frame => "FRAME"
  | .text => "TEXT"
  | .component => "COMPONENT"

/-- The identity of a node, or a text that is none. -/
inductive NodeId where
  | made (kind : NodeKind) (number : Nat)
  | foreign (text : String)
  deriving DecidableEq, Repr

namespace NodeId

def text : NodeId → String
  | .made kind number => kind.name ++ ":" ++ toString number
  | .foreign text => text

/-- The identity that a text spells. -/
def ofText (s : String) : NodeId :=
  let candidates := [NodeKind.frame, .text, .component].filterMap fun kind =>
    (Text.after? (kind.name ++ ":") s).map fun digits =>
      NodeId.made kind (Decimal.digitsFrom 10 0 digits.toList)
  (candidates.find? fun id => id.text == s).getD (.foreign s)

end NodeId

/-- A length that a layout computed, or a number that a style or a fixed rule gives. -/
inductive Quantity (α : Type) where
  | laid (x : α)
  | given (n : Number)
  deriving DecidableEq, Repr

/-- The value of a node's attribute. -/
inductive Attribute (α : Type) where
  | quantity (q : Quantity α)
  | text (s : String)
  deriving DecidableEq, Repr

/-- A setting of attributes after a node is made. -/
inductive Mark (α : Type) where
  | size (width height : Quantity α)
  | cornerRadius (radius : Quantity α)
  | fill (token : String)
  | stroke (token : String) (weight : Quantity α)
  | textColor (token : String)
  deriving DecidableEq, Repr

/-- The attributes that a mark sets, in order. -/
def Mark.attributes {α : Type} : Mark α → Table (Attribute α)
  | .size width height => [("width", .quantity width), ("height", .quantity height)]
  | .cornerRadius radius => [("cornerRadius", .quantity radius)]
  | .fill token => [("fill", .text token)]
  | .stroke token weight => [("stroke", .text token), ("strokeWeight", .quantity weight)]
  | .textColor token => [("textColor", .text token)]

/-- What a new node is made of. -/
inductive Shape (α : Type) where
  | frame (name : String) (x y width height : Quantity α)
  | component (name : String) (x y width height : Quantity α)
  | text (characters : String) (x y fontSize : Quantity α)
  deriving DecidableEq, Repr

namespace Shape

variable {α : Type}

def kind : Shape α → NodeKind
  | .frame .. => .frame
  | .component .. => .component
  | .text .. => .text

/-- A text node is named by its characters. -/
def name : Shape α → String
  | .frame name .. | .component name .. => name
  | .text characters .. => characters

def x : Shape α → Quantity α
  | .frame _ x .. | .component _ x .. | .text _ x .. => x

def y : Shape α → Quantity α
  | .frame _ _ y .. | .component _ _ y .. | .text _ _ y _ => y

def attributes : Shape α → Table (Attribute α)
  | .frame _ _ _ width height | .component _ _ _ width height =>
    [("width", .quantity width), ("height", .quantity height)]
  | .text characters _ _ fontSize =>
    [("characters", .text characters), ("fontSize", .quantity fontSize)]

end Shape

structure Node (α : Type) where
  id : NodeId
  kind : NodeKind
  name : String
  x : Quantity α
  y : Quantity α
  children : List NodeId
  attributes : Table (Attribute α)
  deriving Repr

/-- A fresh node of a shape. -/
def Node.ofShape {α : Type} (id : NodeId) (s : Shape α) : Node α where
  id
  kind := s.kind
  name := s.name
  x := s.x
  y := s.y
  children := []
  attributes := s.attributes

/-- The node with the attributes of a mark. -/
def Node.mark {α : Type} (m : Mark α) (n : Node α) : Node α :=
  { n with attributes := m.attributes.foldl (fun t (k, v) => Table.put k v t) n.attributes }

end DesignTokens.Scene
