import DesignTokens.Json.Value
import DesignTokens.Scene.Graph

/-!
Scenes as data: each root with all that stands below it.
-/
namespace DesignTokens.Scene

def Quantity.toJson : Quantity Number → Json
  | .laid n | .given n => .num n

def Attribute.toJson : Attribute Number → Json
  | .quantity q => q.toJson
  | .text s => .str s

/-- A node with its children; `depth` bounds how far down the children are written. -/
def tree (s : Scene Number) : Nat → Node Number → Json
  | 0, _ => .null
  | depth + 1, n =>
    .obj ([("id", .str n.id.text), ("type", .str n.kind.name), ("name", .str n.name),
      ("x", n.x.toJson), ("y", n.y.toJson),
      ("children", .arr ((n.children.filterMap s.node?).map (tree s depth)))] ++
      Table.mapValues Attribute.toJson n.attributes)

/-- The tree of a node. Where no node stands below itself, none stands deeper than the number of
nodes. -/
def treeOf? (s : Scene Number) (id : NodeId) : Except UnknownNode Json :=
  match s.node? id with
  | some n => .ok (s.tree s.size n)
  | none => .error ⟨id⟩

def rootNodes (s : Scene Number) : List (Node Number) := s.roots.filterMap s.node?

def toJson (s : Scene Number) : Json :=
  .obj [("nodes", .arr (s.rootNodes.map (s.tree s.size)))]

end DesignTokens.Scene
