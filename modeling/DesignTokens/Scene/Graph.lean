import DesignTokens.Scene.Node
import DesignTokens.Text.Quoted

/-!
Scenes: nodes that are made one by one, marked, and put below each other. A node that was never put
below another is a root. Every call is recorded, also one that fails.
-/
namespace DesignTokens

namespace Scene

inductive Call where
  | createFrame
  | createText
  | createComponent
  | appendChild
  | resize
  | setCornerRadius
  | bindFill
  | bindStroke
  | bindTextColor
  deriving DecidableEq, Repr

def Call.name : Call → String
  | .createFrame => "create_frame"
  | .createText => "create_text"
  | .createComponent => "create_component"
  | .appendChild => "append_child"
  | .resize => "resize"
  | .setCornerRadius => "set_corner_radius"
  | .bindFill => "bind_fill_to_token"
  | .bindStroke => "bind_stroke_to_token"
  | .bindTextColor => "bind_text_color_to_token"

def Call.ofShape {α : Type} : Shape α → Call
  | .frame .. => .createFrame
  | .component .. => .createComponent
  | .text .. => .createText

def Call.ofMark {α : Type} : Mark α → Call
  | .size .. => .resize
  | .cornerRadius _ => .setCornerRadius
  | .fill _ => .bindFill
  | .stroke .. => .bindStroke
  | .textColor _ => .bindTextColor

/-- A node that is not in the scene. -/
structure UnknownNode where
  id : NodeId
  deriving DecidableEq, Repr

def UnknownNode.message (u : UnknownNode) : String :=
  "Unknown scene node " ++ Text.quote u.id.text

end Scene

/-- The nodes and the calls are kept with the latest first. -/
structure Scene (α : Type) where
  nodes : List (Scene.Node α) := []
  roots : List Scene.NodeId := []
  calls : List Scene.Call := []
  deriving Repr

namespace Scene

variable {α : Type}

def node? (s : Scene α) (id : NodeId) : Option (Node α) := s.nodes.find? (·.id == id)

/-- The number of nodes. -/
def size (s : Scene α) : Nat := s.nodes.length

def history (s : Scene α) : List Call := s.calls.reverse

def record (c : Call) (s : Scene α) : Scene α := { s with calls := c :: s.calls }

/-- The identity of the next node of a kind. -/
def nextId (s : Scene α) (kind : NodeKind) : NodeId := .made kind (s.size + 1)

/-- Makes a node, which is a root. -/
def create (shape : Shape α) (s : Scene α) : NodeId × Scene α :=
  let s := s.record (.ofShape shape)
  let id := s.nextId shape.kind
  (id, { s with nodes := .ofShape id shape :: s.nodes, roots := s.roots ++ [id] })

/-- Changes the node with an identity. -/
def change (id : NodeId) (f : Node α → Node α) : List (Node α) → List (Node α)
  | [] => []
  | n :: ns => if n.id = id then f n :: ns else n :: change id f ns

/-- What a call leaves: the scene after it, and the node that it did not find. -/
structure Outcome (α : Type) where
  scene : Scene α
  unknown : Option UnknownNode

/-- Marks a node. -/
def mark (id : NodeId) (m : Mark α) (s : Scene α) : Outcome α :=
  let s := s.record (.ofMark m)
  match s.node? id with
  | some _ => ⟨{ s with nodes := change id (Node.mark m) s.nodes }, none⟩
  | none => ⟨s, some ⟨id⟩⟩

/-- Puts a node below another, after those that are there. -/
def appendChild (parent child : NodeId) (s : Scene α) : Outcome α :=
  let s := s.record .appendChild
  match s.node? parent, s.node? child with
  | none, _ => ⟨s, some ⟨parent⟩⟩
  | some _, none => ⟨s, some ⟨child⟩⟩
  | some _, some _ =>
    let adopt (n : Node α) : Node α := { n with children := n.children ++ [child] }
    ⟨{ s with nodes := change parent adopt s.nodes, roots := s.roots.erase child }, none⟩

end Scene

end DesignTokens
